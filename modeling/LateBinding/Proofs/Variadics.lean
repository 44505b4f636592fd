import LateBinding.Proofs.Arguments
import LateBinding.Proofs.Resolution

/-!
# Variadic overloads

Of the variadic methods of a class to which arguments can be passed, a call takes one that no other
beats, if the unbeaten ones have one signature. This is meant to be the most specific of them, and
a call that has none is meant to be refused. It is so as long as an argument is left for the last
parameter, because among parameters that take one argument the comparison is transitive.

If no argument is left, the last parameters are compared for their own sake, and then the comparison
is not transitive: a subclass of `Int` is narrower than `Int`, and `Int` is narrower than `Float`,
but the subclass is not narrower than `Float`. A method for further instances of the subclass is
then taken as the most specific one, although it cannot be compared with the one for further floats
(`Engine.resolveClass_guesses`).

`Lookup.Leads` is the comparison together with this detour. A call takes the method that leads to
all others, and is refused if there is none; so what it takes is the most specific method, for all
calls, exactly if leading to all others is never due to the detour
(`Engine.Reachable.variadic_overloads`).
-/

namespace LateBinding

/-! ## Parameters before the last one -/

namespace Signature

variable {h : Hierarchy} {s t u : Signature} {args : List ClassRef} {p q r : ParamKind}

theorem params_eq_concat (hp : s.params.getLast? = some p) : s.params = s.leading ++ [p] :=
  (List.dropLast_append_getLast? p hp).symm

theorem length_params (hp : s.params.getLast? = some p) :
    s.params.length = s.leading.length + 1 := by
  rw [params_eq_concat hp, List.length_append, List.length_singleton]

theorem forall₂_concat {α : Type} {R : α → α → Prop} {l l' : List α} {a b : α} :
    List.Forall₂ R (l ++ [a]) (l' ++ [b]) ↔ List.Forall₂ R l l' ∧ R a b := by
  rw [← List.forall₂_reverse_iff]
  simp [and_comm]

/-- Parameter lists are compared without their last ones, and these with each other. -/
theorem atLeastAsSpecific_concat (hp : s.params.getLast? = some p)
    (hq : t.params.getLast? = some q) :
    s.atLeastAsSpecific h t ↔
      List.Forall₂ (fun p q => p.narrowerOrEqual h q) s.leading t.leading ∧
        p.narrowerOrEqual h q := by
  rw [atLeastAsSpecific_iff, params_eq_concat hp, params_eq_concat hq]
  exact forall₂_concat

section WellFormed

variable (hh : h.WellFormed)
include hh

/-- Among variadic methods that take the same arguments, the comparison is handed on, unless no
argument is left for the last parameters and these have a step from `Int` to `Float` in them. -/
theorem atLeastAsSpecific_trans_or (hs : s.acceptsMany h args) (ht : t.acceptsMany h args)
    (hu : u.acceptsMany h args) (hst : s.atLeastAsSpecific h t) (htu : t.atLeastAsSpecific h u) :
    s.atLeastAsSpecific h u ∨ args.length < s.params.length ∧
      (t.params.getLast? = some (.ofClass .int) ∧ u.params.getLast? = some (.ofClass .float) ∨
        s.params.getLast? = some (.ofClass .int) ∧ t.params.getLast? = some (.ofClass .float)) := by
  obtain ⟨p, hp, -, henough, hsfits, hsrest⟩ := acceptsMany_iff.mp hs
  obtain ⟨q, hq, -, -, htfits, htrest⟩ := acceptsMany_iff.mp ht
  obtain ⟨r, hr, -, -, hufits, hurest⟩ := acceptsMany_iff.mp hu
  -- compare the parameters before the last one and the last ones apart
  obtain ⟨hlead, hpq⟩ := (atLeastAsSpecific_concat hp hq).mp hst
  obtain ⟨hlead', hqr⟩ := (atLeastAsSpecific_concat hq hr).mp htu
  -- the parameters before the last one take the same arguments
  rw [← hlead'.length_eq, ← hlead.length_eq] at hufits
  rw [← hlead.length_eq] at htfits
  have hleading := ParamKind.narrowerAll_trans hh (fits_iff.mp hsfits) (fits_iff.mp htfits)
    (fits_iff.mp hufits) hlead hlead'
  cases hleft : args.drop s.leading.length with
  | cons c rest =>
    -- an argument that is left is taken by all the last parameters
    have hc : c ∈ args.drop s.leading.length := by
      rw [hleft]
      exact List.mem_cons_self
    have hc' : c ∈ args.drop t.leading.length := hlead.length_eq ▸ hc
    have hc'' : c ∈ args.drop u.leading.length := hlead'.length_eq ▸ hc'
    left
    apply (atLeastAsSpecific_concat hp hr).mpr
    exact ⟨hleading, ParamKind.narrowerOrEqual_trans hh (hsrest c hc) (htrest c hc')
      (hurest c hc'') hpq hqr⟩
  | nil =>
    have hfew : args.length < s.params.length := by
      rw [length_params hp]
      exact Nat.lt_succ_of_le (List.drop_eq_nil_iff.mp hleft)
    -- with no argument left nothing is known of what the last parameters take but their comparison
    rcases ParamKind.narrowerOrEqual_trans_or hh hpq hqr with hpr | ⟨rfl, rfl⟩ | ⟨rfl, rfl⟩
    · exact .inl ((atLeastAsSpecific_concat hp hr).mpr ⟨hleading, hpr⟩)
    · exact .inr ⟨hfew, .inl ⟨hq, hr⟩⟩
    · exact .inr ⟨hfew, .inr ⟨hp, hq⟩⟩

end WellFormed

end Signature

/-! ## Leading methods -/

namespace Lookup

variable {β : Type} {h : Hierarchy} {t : MemberTable β} {name : String} {args : List ClassRef}
variable {m x y : Method β}

/-- The last parameter of the method. -/
def lastParam? (m : Method β) : Option ParamKind := m.signature.params.getLast?

/-- No argument is left for the last parameter of `m`, and comparisons lead from `m` to `x` by way
of a method for further integers and one for further floats. -/
def Detour (h : Hierarchy) (t : MemberTable β) (name : String) (args : List ClassRef)
    (m x : Method β) : Prop :=
  args.length < m.signature.params.length ∧
    ∃ i f, FitsMany h t name args i ∧ lastParam? i = some (.ofClass .int) ∧
      FitsMany h t name args f ∧ lastParam? f = some (.ofClass .float) ∧
      m.signature.atLeastAsSpecific h i.signature ∧ i.signature.atLeastAsSpecific h f.signature ∧
      f.signature.atLeastAsSpecific h x.signature

/-- `m` is at least as specific as `x`, or comparisons lead from it to `x` by a detour. -/
def Leads (h : Hierarchy) (t : MemberTable β) (name : String) (args : List ClassRef)
    (m x : Method β) : Prop :=
  m.signature.atLeastAsSpecific h x.signature ∨ Detour h t name args m x

/-- A variadic method that fits and leads to all others that do; if one of its signature is native,
it is. -/
structure Leader (h : Hierarchy) (t : MemberTable β) (name : String) (args : List ClassRef)
    (m : Method β) : Prop where
  fits : FitsMany h t name args m
  leads : ∀ x, FitsMany h t name args x → Leads h t name args m x
  native : ∀ x, FitsMany h t name args x → x.signature = m.signature →
    x.origin.isNative = true → m.origin.isNative = true

/-- The method is at least as specific as all variadic methods that fit. -/
def LeastMany (h : Hierarchy) (t : MemberTable β) (name : String) (args : List ClassRef)
    (m : Method β) : Prop :=
  ∀ x, FitsMany h t name args x → m.signature.atLeastAsSpecific h x.signature

/-- There is no detour if an argument is left for the last parameter, or if there is no method for
further integers or none for further floats. -/
theorem not_detour (hplain : m.signature.params.length ≤ args.length ∨
      (∀ i, FitsMany h t name args i → lastParam? i ≠ some (.ofClass .int)) ∨
      ∀ f, FitsMany h t name args f → lastParam? f ≠ some (.ofClass .float)) :
    ¬ Detour h t name args m x := by
  rintro ⟨hfew, i, f, hi, hint, hf, hfloat, -⟩
  rcases hplain with hmany | hno | hno
  · exact absurd hfew (Nat.not_lt_of_le hmany)
  · exact hno i hi hint
  · exact hno f hf hfloat

/-- Variadic methods of one name that have the same parameters have the same signature. -/
theorem signature_eq_of_fitsMany (hm : FitsMany h t name args m) (hx : FitsMany h t name args x)
    (hparams : m.signature.params = x.signature.params) : m.signature = x.signature := by
  obtain ⟨-, -, hvar, -⟩ := Signature.acceptsMany_iff.mp hm.2.2
  obtain ⟨-, -, hvar', -⟩ := Signature.acceptsMany_iff.mp hx.2.2
  have hname : m.signature.name = x.signature.name := hm.2.1.trans hx.2.1.symm
  generalize m.signature = s, x.signature = s' at *
  cases s
  cases s'
  simp_all

section WellFormed

variable (hh : h.WellFormed)
include hh

/-- Leading to a method is leading to what that is at least as specific as. -/
theorem Leads.step (hm : FitsMany h t name args m) (hy : FitsMany h t name args y)
    (hx : FitsMany h t name args x) (hlead : Leads h t name args m y)
    (hle : y.signature.atLeastAsSpecific h x.signature) : Leads h t name args m x := by
  -- the way to the method was direct, or a detour by a method for integers and one for floats
  rcases hlead with hmy | ⟨hfew, i, f, hi, hint, hf, hfloat, hmi, hif, hfy⟩
  · rcases Signature.atLeastAsSpecific_trans_or hh hm.2.2 hy.2.2 hx.2.2 hmy hle with
      hmx | ⟨hfew, ⟨hint, hfloat⟩ | ⟨hint, hfloat⟩⟩
    · exact .inl hmx
    · exact .inr ⟨hfew, y, x, hy, hint, hx, hfloat, hmy, hle,
        Signature.atLeastAsSpecific_of_params rfl⟩
    · exact .inr ⟨hfew, m, y, hm, hint, hy, hfloat, Signature.atLeastAsSpecific_of_params rfl,
        hmy, hle⟩
  · -- beyond the method for floats there is no other step from `Int` to `Float`
    refine .inr ⟨hfew, i, f, hi, hint, hf, hfloat, hmi, hif, ?_⟩
    rcases Signature.atLeastAsSpecific_trans_or hh hf.2.2 hy.2.2 hx.2.2 hfy hle with
      hfx | ⟨-, ⟨hint', -⟩ | ⟨hint', -⟩⟩
    · exact hfx
    · exact absurd ((Signature.atLeastAsSpecific_concat hfloat hint').mp hfy).2
        (ParamKind.not_narrowerOrEqual_float_int hh)
    · rw [show f.signature.params.getLast? = some (.ofClass .float) from hfloat] at hint'
      exact absurd hint' (by decide)

/-- What leads to a method has its parameters below those of the method. -/
theorem Leads.below (hlead : Leads h t name args m x) :
    List.Forall₂ (ParamKind.Below h) m.signature.params x.signature.params := by
  rcases hlead with hmx | ⟨-, i, f, -, -, -, -, hmi, hif, hfx⟩
  · exact Signature.belowAll_of_atLeastAsSpecific hmx
  · have hmf := ParamKind.belowAll_trans hh (Signature.belowAll_of_atLeastAsSpecific hmi)
      (Signature.belowAll_of_atLeastAsSpecific hif)
    exact ParamKind.belowAll_trans hh hmf (Signature.belowAll_of_atLeastAsSpecific hfx)

/-- No method beats one that leads to it. -/
theorem Leads.not_beats (hlead : Leads h t name args m x) : ¬ Beats h x m := by
  intro hbeats
  have hparams := ParamKind.belowAll_antisymm hh (hlead.below hh)
    (Signature.belowAll_of_atLeastAsSpecific hbeats.1)
  exact hbeats.2 (Signature.atLeastAsSpecific_of_params hparams)

/-- A method that no other beats has the parameters of all that lead to it. -/
theorem Leads.params_eq (hm : FitsMany h t name args m) (hlead : Leads h t name args m x)
    (hunbeaten : ∀ y, FitsMany h t name args y → ¬ Beats h y x) :
    m.signature.params = x.signature.params := by
  -- whatever is at least as specific as an unbeaten method has its parameters
  -- unbeaten, it is in turn at least as specific, and then the parameters are the same
  have hsame : ∀ y, FitsMany h t name args y → y.signature.atLeastAsSpecific h x.signature →
      y.signature.params = x.signature.params := by
    intro y hy hyx
    have hxy : x.signature.atLeastAsSpecific h y.signature := by
      by_contra hno
      exact hunbeaten y hy ⟨hyx, hno⟩
    exact Signature.params_eq_of_atLeastAsSpecific hh hyx hxy
  rcases hlead with hmx | ⟨-, i, f, hi, hint, hf, hfloat, -, hif, hfx⟩
  · exact hsame m hm hmx
  · -- a detour cannot end there: its two methods would have the same parameters
    have hfparams := hsame f hf hfx
    have hix : i.signature.atLeastAsSpecific h x.signature := by
      rw [Signature.atLeastAsSpecific_iff] at hif ⊢
      rw [← hfparams]
      exact hif
    have hiparams := hsame i hi hix
    rw [lastParam?, hiparams, ← hfparams] at hint
    rw [lastParam?, hint] at hfloat
    exact absurd hfloat (by decide)

/-- The variadic choice of a table is its leader. -/
theorem variadicChoice_iff_leader (ht : t.WellKept) :
    VariadicChoice h t name args m ↔ Leader h t name args m := by
  constructor
  · intro hc
    refine ⟨hc.fits, ?_, hc.native⟩
    -- by induction on what beats a method, which is well-founded among the methods that fit
    have hall : ∀ x ∈ variadicFittingIn h t name args, Leads h t name args m x := by
      refine beats_induction hh fun x hx ih => ?_
      have hfits := (mem_variadicFittingIn ht).mp hx
      by_cases hunbeaten : ∀ y, FitsMany h t name args y → ¬ Beats h y x
      · left
        apply Signature.atLeastAsSpecific_of_params
        rw [hc.signature x hfits hunbeaten]
      · -- a beaten method is reached through one that beats it
        simp only [not_forall, not_not] at hunbeaten
        obtain ⟨y, hy, hyx⟩ := hunbeaten
        have hmy := ih y ((mem_variadicFittingIn ht).mpr hy) hyx
        exact hmy.step hh hc.fits hy hfits hyx.1
    intro x hx
    exact hall x ((mem_variadicFittingIn ht).mpr hx)
  · intro hl
    refine ⟨hl.fits, fun x hx => (hl.leads x hx).not_beats hh, fun x hx hunbeaten => ?_, hl.native⟩
    exact (signature_eq_of_fitsMany hl.fits hx
      ((hl.leads x hx).params_eq hh hl.fits hunbeaten)).symm

end WellFormed

end Lookup

/-! ## Calls -/

namespace Registry

variable {β : Type} {r : Registry β} {c d : ClassRef} {name : String} {args : List ClassRef}
variable {answer : Except DispatchError (Target β)}

/-- The answer to a call that the variadic methods of a class decide is chosen as it is meant to be:
a method that is taken is at least as specific as all that fit, and if no method is, the call is
ambiguous. -/
def ChoosesLeast (r : Registry β) (c d : ClassRef) (name : String) (args : List ClassRef)
    (answer : Except DispatchError (Target β)) : Prop :=
  (∀ m, answer = .ok (.method m) →
    Lookup.FitsMany r.hierarchy (r.members d) name args m ∧
      Lookup.LeastMany r.hierarchy (r.members d) name args m) ∧
  ((∀ m, Lookup.FitsMany r.hierarchy (r.members d) name args m →
      ¬ Lookup.LeastMany r.hierarchy (r.members d) name args m) →
    ∃ texts, answer = .error (.ambiguousOverload (r.hierarchy.nameOf c) name
      (Lookup.classTexts r.hierarchy args) texts))

/-- If the leader is what a call takes, the call chooses as it is meant to exactly if the leader is
at least as specific as all others. -/
theorem chooses_iff (h : r.DecidedBy c name args
      (Lookup.FitsMany r.hierarchy (r.members d) name args)
      (Lookup.Leader r.hierarchy (r.members d) name args) answer) :
    r.ChoosesLeast c d name args answer ↔
      ∀ m, Lookup.Leader r.hierarchy (r.members d) name args m →
        Lookup.LeastMany r.hierarchy (r.members d) name args m := by
  -- the leader is what an answer of the call is, so the two sides speak of one method
  constructor
  · intro hchooses m hm
    exact (hchooses.1 m ((h.1 _).mpr ⟨m, rfl, hm⟩)).2
  · intro hleast
    refine ⟨fun m hm => ?_, fun hnone => ?_⟩
    · obtain ⟨m', heq, hleader⟩ := (h.1 _).mp hm
      cases heq
      exact ⟨hleader.fits, hleast m hleader⟩
    · obtain ⟨ms, -, herror⟩ := h.2 fun m hm => hnone m hm.fits (hleast m hm)
      exact ⟨_, herror⟩

/-- Of the classes on a chain with a property, there is a first. -/
theorem exists_firstOn {P : ClassRef → Prop} (hd : d ∈ r.hierarchy.chain c) (hP : P d) :
    ∃ b, r.FirstOn c P b := by
  classical
  cases hfind : (r.hierarchy.chain c).find? fun b => P b with
  | none => exact absurd hP (by simpa using List.find?_eq_none.mp hfind d hd)
  | some b =>
    obtain ⟨hb, before, after, hchain, hbefore⟩ := List.find?_eq_some_iff_append.mp hfind
    exact ⟨b, before, after, hchain, by simpa using hb, by simpa using hbefore⟩

/-- If no fixed method fits, a method that is found is one of the first class with a variadic method
which fits. -/
theorem firstOn_of_lookup (hr : r.Sound) (hc : r.hierarchy.Declares c)
    (hfixed : ∀ b ∈ r.hierarchy.chain c, ¬ r.HasFixed name args b) {m : Method β}
    (hm : r.lookup .method (.plain c) name args = .ok (.method m)) :
    ∃ d, r.FirstOn c (r.HasVariadic name args) d := by
  by_contra hno
  have hvariadic : ∀ b ∈ r.hierarchy.chain c, ¬ r.HasVariadic name args b := by
    intro b hb hhas
    apply hno
    exact exists_firstOn hb hhas
  rw [lookup_of_neither hr hc hfixed hvariadic] at hm
  split at hm <;> cases hm

end Registry

namespace Engine

variable {β : Type} {g : Engine β} {c : ClassRef}

/-- How variadic overloads are chosen in every engine, if no fixed method fits. A method that is
found is one of the first class on the chain with a variadic method that fits, and it is the one of
them that leads to all others; if there is none, the call is ambiguous. That is the most specific
method, and a call without one is ambiguous, exactly if leading to all others is being the most
specific; in particular if an argument is left for the last parameter, and if there are no methods
for further integers or none for further floats. -/
theorem Reachable.variadic_overloads (hg : g.Reachable) (hc : g.registry.hierarchy.Declares c)
    (name : String) (args : List ClassRef)
    (hfixed : ∀ b ∈ g.registry.hierarchy.chain c, ¬ g.registry.HasFixed name args b) :
    (∀ m, (g.resolveClass c name args).1 = .ok (.method m) →
      ∃ d, g.registry.FirstOn c (g.registry.HasVariadic name args) d) ∧
    ∀ d, g.registry.FirstOn c (g.registry.HasVariadic name args) d →
      let fits := Lookup.FitsMany g.registry.hierarchy (g.registry.members d) name args
      let leader := Lookup.Leader g.registry.hierarchy (g.registry.members d) name args
      let least := Lookup.LeastMany g.registry.hierarchy (g.registry.members d) name args
      let answer := (g.resolveClass c name args).1
      g.registry.DecidedBy c name args fits leader answer ∧
      (g.registry.ChoosesLeast c d name args answer ↔ ∀ m, leader m → least m) ∧
      ((∀ m, fits m → m.signature.params.length ≤ args.length) ∨
          (∀ m, fits m → Lookup.lastParam? m ≠ some (.ofClass .int)) ∨
          (∀ m, fits m → Lookup.lastParam? m ≠ some (.ofClass .float)) →
        g.registry.ChoosesLeast c d name args answer) := by
  have hr := hg.sound
  rw [resolveClass_eq_lookup hc]
  refine ⟨fun m hm => Registry.firstOn_of_lookup hr hc hfixed hm, ?_⟩
  intro d hd fits leader least answer
  have hdecided : g.registry.DecidedBy c name args fits leader answer := by
    have h := Registry.lookup_of_variadic hr hc hfixed hd
    -- choices and leaders are the same methods, by the induction on what beats what
    have hsame : Lookup.VariadicChoice g.registry.hierarchy (g.registry.members d) name args =
        leader := by
      funext m
      exact propext (Lookup.variadicChoice_iff_leader hr.hierarchy (hr.members_wellKept d))
    rwa [hsame] at h
  have hchooses := Registry.chooses_iff hdecided
  refine ⟨hdecided, hchooses, fun hplain => hchooses.mpr fun m hm x hx => ?_⟩
  -- a leader that leads nowhere by a detour is at least as specific as all others
  apply (hm.leads x hx).resolve_right
  apply Lookup.not_detour
  rcases hplain with hmany | hnone
  · exact .inl (hmany m hm.fits)
  · exact .inr hnone

/-- A subclass of `Int`, and a class with a method for further instances of each of the subclass,
`Int` and `Float`. -/
def sampleVariadics : Engine Unit :=
  ((build .default).perform (.define ⟨"Sub", some .int, [], false, []⟩ [])).perform
    (.define ⟨"R", none, [], false, []⟩
      [⟨⟨"m", [.ofClass ⟨8⟩], true⟩, .body ()⟩, ⟨⟨"m", [.ofClass .int], true⟩, .body ()⟩,
        ⟨⟨"m", [.ofClass .float], true⟩, .body ()⟩])

theorem reachable_sampleVariadics : sampleVariadics.Reachable := by
  have hfresh : ReachableBy Anything (build (β := Unit) .default) := ⟨.default, .refl⟩
  exact (hfresh.perform trivial).perform trivial

theorem not_hasFixed_sampleVariadics (args : List ClassRef) (hargs : args ∈ [[], [.int]]) :
    ∀ b ∈ sampleVariadics.registry.hierarchy.chain ⟨9⟩,
      ¬ sampleVariadics.registry.HasFixed "m" args b := by
  have hnone : ∀ args ∈ [[], [.int]], ∀ b ∈ sampleVariadics.registry.hierarchy.chain ⟨9⟩,
      Lookup.fittingIn sampleVariadics.registry.hierarchy (sampleVariadics.registry.members b)
        "m" args = [] := by decide
  rintro b hb ⟨m, hm⟩
  have hkept := reachable_sampleVariadics.sound.members_wellKept b
  rw [← Lookup.mem_fittingIn hkept, hnone args hargs b hb] at hm
  exact absurd hm List.not_mem_nil

/-- The class takes whatever fits its method for further floats. -/
theorem exists_fitsMany_sampleVariadics (args : List ClassRef) (hargs : args ∈ [[], [.int]]) :
    ∃ f, Lookup.FitsMany sampleVariadics.registry.hierarchy
        (sampleVariadics.registry.members ⟨9⟩) "m" args f ∧
      f.signature.params = [.ofClass .float] := by
  have hkept := reachable_sampleVariadics.sound.members_wellKept ⟨9⟩
  have hfits : ∀ args ∈ [[], [ClassRef.int]], ∃ f ∈ Lookup.variadicFittingIn
      sampleVariadics.registry.hierarchy (sampleVariadics.registry.members ⟨9⟩) "m" args,
      f.signature.params = [.ofClass .float] := by
    decide
  obtain ⟨f, hf, hparams⟩ := hfits args hargs
  exact ⟨f, (Lookup.mem_variadicFittingIn hkept).mp hf, hparams⟩

theorem firstOn_sampleVariadics (args : List ClassRef) (hargs : args ∈ [[], [.int]]) :
    sampleVariadics.registry.FirstOn ⟨9⟩ (sampleVariadics.registry.HasVariadic "m" args) ⟨9⟩ := by
  obtain ⟨f, hf, -⟩ := exists_fitsMany_sampleVariadics args hargs
  exact ⟨[], _, rfl, ⟨f, hf⟩, nofun⟩

/-- With an integer, the method for further integers is taken. -/
theorem variadic_overloads_sampleVariadics :
    sampleVariadics.Reachable ∧ sampleVariadics.registry.hierarchy.Declares ⟨9⟩ ∧
      (∀ b ∈ sampleVariadics.registry.hierarchy.chain ⟨9⟩,
        ¬ sampleVariadics.registry.HasFixed "m" [.int] b) ∧
      ∃ m, (sampleVariadics.resolveClass ⟨9⟩ "m" [.int]).1 = .ok (.method m) ∧
        m.signature.params = [.ofClass .int] ∧
        Lookup.LeastMany sampleVariadics.registry.hierarchy
          (sampleVariadics.registry.members ⟨9⟩) "m" [.int] m := by
  have hreach := reachable_sampleVariadics
  have hdeclares : sampleVariadics.registry.hierarchy.Declares ⟨9⟩ := by decide
  have hfixed := not_hasFixed_sampleVariadics [.int] (by decide)
  obtain ⟨-, hdecided⟩ := hreach.variadic_overloads hdeclares "m" [.int] hfixed
  obtain ⟨-, -, hleast⟩ := hdecided ⟨9⟩ (firstOn_sampleVariadics [.int] (by decide))
  have hshort : ∀ m, Lookup.FitsMany sampleVariadics.registry.hierarchy
      (sampleVariadics.registry.members ⟨9⟩) "m" [.int] m → m.signature.params.length ≤ 1 := by
    -- at most one parameter each, of which the integer leaves none empty
    have hall : ∀ m ∈ Lookup.variadicFittingIn sampleVariadics.registry.hierarchy
        (sampleVariadics.registry.members ⟨9⟩) "m" [.int], m.signature.params.length ≤ 1 := by
      decide
    intro m hm
    exact hall m ((Lookup.mem_variadicFittingIn (hreach.sound.members_wellKept ⟨9⟩)).mpr hm)
  obtain ⟨m, hm, hparams⟩ : ∃ m,
      (sampleVariadics.resolveClass ⟨9⟩ "m" [.int]).1 = .ok (.method m) ∧
        m.signature.params = [.ofClass .int] := ⟨_, rfl, rfl⟩
  exact ⟨hreach, hdeclares, hfixed, m, hm, hparams, ((hleast (.inl hshort)).1 m hm).2⟩

/-- Without arguments, no method is at least as specific as all others, and yet the one for further
instances of the subclass is taken. -/
theorem resolveClass_guesses :
    sampleVariadics.Reachable ∧ sampleVariadics.registry.hierarchy.Declares ⟨9⟩ ∧
      (∀ b ∈ sampleVariadics.registry.hierarchy.chain ⟨9⟩,
        ¬ sampleVariadics.registry.HasFixed "m" [] b) ∧
      sampleVariadics.registry.FirstOn ⟨9⟩ (sampleVariadics.registry.HasVariadic "m" []) ⟨9⟩ ∧
      (∀ m, Lookup.FitsMany sampleVariadics.registry.hierarchy
          (sampleVariadics.registry.members ⟨9⟩) "m" [] m →
        ¬ Lookup.LeastMany sampleVariadics.registry.hierarchy
          (sampleVariadics.registry.members ⟨9⟩) "m" [] m) ∧
      (∃ m, (sampleVariadics.resolveClass ⟨9⟩ "m" []).1 = .ok (.method m) ∧
        m.signature.params = [.ofClass ⟨8⟩]) ∧
      ¬ sampleVariadics.registry.ChoosesLeast ⟨9⟩ ⟨9⟩ "m" []
        (sampleVariadics.resolveClass ⟨9⟩ "m" []).1 := by
  have hkept := reachable_sampleVariadics.sound.members_wellKept ⟨9⟩
  have hnone : ∀ m, Lookup.FitsMany sampleVariadics.registry.hierarchy
      (sampleVariadics.registry.members ⟨9⟩) "m" [] m →
      ¬ Lookup.LeastMany sampleVariadics.registry.hierarchy
        (sampleVariadics.registry.members ⟨9⟩) "m" [] m := by
    -- each of the three methods has another that it is not at least as specific as
    have hbeyond : ∀ m ∈ Lookup.variadicFittingIn sampleVariadics.registry.hierarchy
        (sampleVariadics.registry.members ⟨9⟩) "m" [],
        ∃ x ∈ Lookup.variadicFittingIn sampleVariadics.registry.hierarchy
          (sampleVariadics.registry.members ⟨9⟩) "m" [],
          ¬ m.signature.atLeastAsSpecific sampleVariadics.registry.hierarchy x.signature := by
      decide
    intro m hm hleast
    obtain ⟨x, hx, hno⟩ := hbeyond m ((Lookup.mem_variadicFittingIn hkept).mpr hm)
    exact hno (hleast x ((Lookup.mem_variadicFittingIn hkept).mp hx))
  have htaken : ∃ m, (sampleVariadics.resolveClass ⟨9⟩ "m" []).1 = .ok (.method m) ∧
      m.signature.params = [.ofClass ⟨8⟩] := ⟨_, rfl, rfl⟩
  refine ⟨reachable_sampleVariadics, by decide, not_hasFixed_sampleVariadics [] (by decide),
    firstOn_sampleVariadics [] (by decide), hnone, htaken, fun hchooses => ?_⟩
  obtain ⟨m, hm, -⟩ := htaken
  obtain ⟨hfits, hleast⟩ := hchooses.1 m hm
  exact hnone m hfits hleast

end Engine

end LateBinding
