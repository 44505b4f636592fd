import LateBinding.Proofs.Growth
import LateBinding.Proofs.Recall

/-!
# What bodies receive

Whether a method fits is decided on the classes of the arguments when the member is resolved; the
arguments themselves are converted in every call, also if the method comes from a site or the memo.
What a parameter takes it goes on taking, because classes never stop being kinds of others
(`Hierarchy.Widens`). So whenever a call decides on a method, the method takes the arguments in the
hierarchy of that moment, and what the code receives conforms to the parameters
(`Engine.Reachable.arguments_conform`).
-/

namespace LateBinding

/-! ## Parameters -/

/-- A value that is no object of a builtin class. -/
def Value.Ordinary (v : Value) : Prop := ∀ o, v = .object o → ¬ Hierarchy.builtin.Declares o.cls

namespace ParamKind

variable {h h' : Hierarchy} {p : ParamKind} {v : Value} {c : ClassRef}

/-- The parameter is for values like this one: it is for any, or for those of a class that the
value's is a kind of, or the value is nil and the parameter not of a primitive class. -/
def Conforms (h : Hierarchy) (p : ParamKind) (v : Value) : Prop :=
  p = .any ∨ ∃ c, p = .ofClass c ∧
    (h.isAssignable v.classOf c ∨ v = .nil ∧ c.isPrimitive = false)

theorem convert_of_not_widened (hv : p.widened? v = none) : p.convert v = v := by
  rw [convert, hv, Option.getD_none]

/-- A parameter for floats makes floats of integers and leaves other values alone. -/
theorem widened?_eq_some {w : Value} (hw : p.widened? v = some w) :
    p = .ofClass .float ∧ ∃ n, v = .int n ∧ w = .float (floatOfInt n) := by
  unfold widened? at hw
  split at hw
  · split at hw
    · next hc =>
      cases hw
      exact ⟨congrArg ofClass hc, _, rfl, rfl⟩
    · cases hw
  · cases hw

theorem eq_int_of_classOf (hv : v.Ordinary) (hcls : v.classOf = .int) : ∃ n, v = .int n := by
  cases v with
  | int n => exact ⟨n, rfl⟩
  | object o =>
    refine absurd ?_ (hv o rfl)
    rw [show o.cls = .int from hcls]
    decide
  | nil | bool | float | str | list => exact absurd hcls (by simp only [Value.classOf]; decide)

theorem eq_nil_of_classOf (hv : v.Ordinary) (hcls : v.classOf = .null) : v = .nil := by
  cases v with
  | nil => rfl
  | object o =>
    refine absurd ?_ (hv o rfl)
    rw [show o.cls = .null from hcls]
    decide
  | int | bool | float | str | list => exact absurd hcls (by simp only [Value.classOf]; decide)

/-- What a parameter makes of a value whose class it takes conforms to it. -/
theorem conforms_convert (hv : v.Ordinary) (hacc : p.accepts h v.classOf) :
    p.Conforms h (p.convert v) := by
  -- only an integer for a float is widened, all else is passed as it is
  cases hw : p.widened? v with
  | some w =>
    obtain ⟨rfl, n, rfl, rfl⟩ := widened?_eq_some hw
    rw [convert, hw, Option.getD_some]
    exact .inr ⟨.float, rfl, .inl Hierarchy.isAssignable_refl⟩
  | none =>
    rw [convert_of_not_widened hw]
    cases p with
    | any => exact .inl rfl
    | ofClass c =>
      refine .inr ⟨c, rfl, ?_⟩
      rcases accepts_ofClass.mp hacc with hassign | ⟨hint, rfl⟩ | ⟨hnull, hprim⟩
      · exact .inl hassign
      · -- an integer would have been widened
        obtain ⟨n, rfl⟩ := eq_int_of_classOf hv hint
        cases hw
      · exact .inr ⟨eq_nil_of_classOf hv hnull, hprim⟩

theorem not_conforms_float_int (hh : h.WellFormed) (n : Int64) :
    ¬ (ofClass .float).Conforms h (.int n) := by
  rintro (hany | ⟨c, hc, hassign | ⟨hnil, -⟩⟩)
  · cases hany
  · cases hc
    exact hh.not_isAssignable_int_float hassign
  · cases hnil

end ParamKind

/-! ## Signatures -/

namespace Signature

variable {h h' : Hierarchy} {s : Signature} {args : List Value} {classes : List ClassRef}

/-- What the code of a method receives is as its parameters have it: one value for each, and in
place of the last one of a variadic method a list of any number of them. -/
inductive Receives (h : Hierarchy) (s : Signature) : List Value → Prop
  | fixed {got : List Value} (hfixed : s.variadic = false)
    (hgot : List.Forall₂ (ParamKind.Conforms h) s.params got) : Receives h s got
  | variadic {got items : List Value} {element : ParamKind} (hvariadic : s.variadic = true)
    (helement : s.params.getLast? = some element)
    (hgot : List.Forall₂ (ParamKind.Conforms h) s.leading got)
    (hitems : ∀ v ∈ items, element.Conforms h v) : Receives h s (got ++ [.list items])

/-- The method takes arguments of some classes, with a fixed number of them or any. -/
def Takes (h : Hierarchy) (s : Signature) (classes : List ClassRef) : Prop :=
  s.accepts h classes ∨ s.acceptsMany h classes

theorem acceptsMany_iff : s.acceptsMany h classes ↔ ∃ element, s.params.getLast? = some element ∧
    s.variadic = true ∧ s.leading.length ≤ classes.length ∧
      fits h s.leading (classes.take s.leading.length) ∧
      ∀ c ∈ classes.drop s.leading.length, element.accepts h c := by
  unfold acceptsMany
  cases s.params.getLast? with
  | none => simp
  | some element => simp [and_assoc]

/-- Arguments that fit parameters, converted one by one, conform to them. -/
theorem conforms_of_fits {params : List ParamKind} (hargs : ∀ v ∈ args, v.Ordinary)
    (hfits : fits h params (args.map Value.classOf)) :
    List.Forall₂ (ParamKind.Conforms h) params
      ((params.zip args).map fun p => p.1.convert p.2) := by
  rw [fits_iff, List.forall₂_map_right_iff] at hfits
  induction hfits with
  | nil => exact .nil
  | cons hacc _ ih =>
    obtain ⟨hv, hrest⟩ := List.forall_mem_cons.mp hargs
    exact .cons (ParamKind.conforms_convert hv hacc) (ih hrest)

theorem receives_of_accepts (hargs : ∀ v ∈ args, v.Ordinary)
    (hacc : s.accepts h (args.map Value.classOf)) :
    ∃ got, s.arguments args = .ok got ∧ s.Receives h got := by
  obtain ⟨hfixed, hfits⟩ := accepts_iff.mp hacc
  have hlength : s.params.length = args.length := by simpa using length_eq_of_fits hfits
  refine ⟨_, ?_, .fixed hfixed (conforms_of_fits hargs hfits)⟩
  -- no argument is left over
  have hrest : args.drop s.params.length = [] :=
    List.drop_eq_nil_iff.mpr (Nat.le_of_eq hlength.symm)
  simp [arguments, hfixed, hrest]

theorem receives_of_acceptsMany (hargs : ∀ v ∈ args, v.Ordinary)
    (hacc : s.acceptsMany h (args.map Value.classOf)) :
    ∃ got, s.arguments args = .ok got ∧ s.Receives h got := by
  obtain ⟨element, helement, hvariadic, henough, hfits, hrest⟩ := acceptsMany_iff.mp hacc
  rw [List.length_map] at henough
  rw [← List.map_take] at hfits
  have hlead := conforms_of_fits (fun v hv => hargs v (List.mem_of_mem_take hv)) hfits
  -- what is packed is taken by the last parameter
  have hitems : ∀ v ∈ (args.drop s.leading.length).map element.convert, element.Conforms h v := by
    intro v hv
    obtain ⟨w, hw, rfl⟩ := List.mem_map.mp hv
    refine ParamKind.conforms_convert (hargs w (List.mem_of_mem_drop hw)) (hrest _ ?_)
    rw [← List.map_drop]
    exact List.mem_map_of_mem hw
  -- the parameters before the last one take as many arguments as there are of them
  have hzip : s.leading.zip args = s.leading.zip (args.take s.leading.length) := by
    conv_lhs => rw [List.zip_eq_zip_take_min, Nat.min_eq_left henough, List.take_length]
  rw [← hzip] at hlead
  refine ⟨_, ?_, .variadic hvariadic helement hlead hitems⟩
  simp [arguments, hvariadic, helement, Nat.not_lt_of_le henough]

/-- A method that takes the classes of the arguments can be called with them, and its code receives
what its parameters are for. -/
theorem receives_of_takes (hargs : ∀ v ∈ args, v.Ordinary)
    (htakes : s.Takes h (args.map Value.classOf)) :
    ∃ got, s.arguments args = .ok got ∧ s.Receives h got :=
  htakes.elim (receives_of_accepts hargs) (receives_of_acceptsMany hargs)

end Signature

/-! ## Lookups -/

/-- The classes of the arguments that a lookup goes by. -/
def Access.seen (access : Access) (classes : List ClassRef) : List ClassRef :=
  match access with
  | .method => classes
  | .read => []
  | .write => [classes.headD .null]

namespace Lookup

variable {β : Type} {h : Hierarchy} {path : List (MemberTable β)} {cls : ClassRef} {name : String}
variable {args : List ClassRef} {m : Method β}

theorem exists_of_firstOffer {α : Type}
    {offer : MemberTable β → Except DispatchError (Option α)} {a : α}
    (ha : firstOffer offer path = .ok (some a)) : ∃ t ∈ path, offer t = .ok (some a) := by
  induction path with
  | nil => cases ha
  | cons t rest ih =>
    -- a table without an offer hands the search on
    rw [firstOffer] at ha
    split at ha
    · cases ha
    · next b hb =>
      cases ha
      exact ⟨t, List.mem_cons_self, hb⟩
    · obtain ⟨s, hs, hoffer⟩ := ih ha
      exact ⟨s, List.mem_cons_of_mem _ hs, hoffer⟩

section WellFormed

variable (hh : h.WellFormed) (hpath : ∀ t ∈ path, t.WellKept)
include hh hpath

theorem takes_of_findFixed (hm : findFixed h path cls name args = .ok (some m)) :
    m.signature.Takes h args := by
  obtain ⟨t, ht, hoffer⟩ := exists_of_firstOffer hm
  exact .inl ((fixedIn_eq_some_iff (hpath t ht) hh).mp hoffer).fits.2.2

omit hh in
theorem takes_of_findVariadic (hm : findVariadic h path cls name args = .ok (some m)) :
    m.signature.Takes h args := by
  obtain ⟨t, ht, hoffer⟩ := exists_of_firstOffer hm
  exact .inr ((variadicIn_eq_some_iff (hpath t ht)).mp hoffer).fits.2.2

theorem takes_of_findMethod (hm : findMethod h path cls name args = .ok (.method m)) :
    m.signature.Takes h args := by
  unfold findMethod at hm
  split at hm
  -- a method is found among the fixed ones, or else among the variadic ones; a hook is none
  · cases hm
  · next hfixed =>
    cases hm
    exact takes_of_findFixed hh hpath hfixed
  · split at hm
    · cases hm
    · next hvariadic =>
      cases hm
      exact takes_of_findVariadic hpath hvariadic
    · split at hm <;> cases hm

theorem takes_of_findReader (hm : findReader h path cls name = .ok (some m)) :
    m.signature.Takes h [] := by
  unfold findReader at hm
  split at hm
  · exact takes_of_findFixed hh hpath hm
  · exact takes_of_findFixed hh hpath hm

theorem takes_of_findRead (hm : findRead h path cls name = .ok (.method m)) :
    m.signature.Takes h [] := by
  unfold findRead at hm
  split at hm
  · split at hm <;> cases hm
  · split at hm
    · cases hm
    · next hreader =>
      cases hm
      exact takes_of_findReader hh hpath hreader
    · -- neither a field nor a hook is a method
      split at hm
      · cases hm
      · split at hm <;> cases hm

theorem takes_of_findWrite {value : ClassRef}
    (hm : findWrite h path cls name value = .ok (.method m)) : m.signature.Takes h [value] := by
  -- a field that is declared and a hook are no methods
  unfold findWrite at hm
  split at hm
  · split at hm <;> cases hm
  · split at hm
    · cases hm
    · next hwriter =>
      cases hm
      exact takes_of_findFixed hh hpath hwriter
    · split at hm
      · cases hm
      · split at hm <;> cases hm

/-- A method that a member resolves to takes the arguments that the access passes. -/
theorem takes_of_find {access : Access} (hm : find h path access cls name args = .ok (.method m)) :
    m.signature.Takes h (access.seen args) := by
  cases access with
  | method => exact takes_of_findMethod hh hpath hm
  | read => exact takes_of_findRead hh hpath hm
  | write => exact takes_of_findWrite hh hpath hm

end WellFormed

end Lookup

theorem Registry.takes_of_lookup {β : Type} {r : Registry β} (hr : r.Sound) {access : Access}
    {receiver : Receiver} {name : String} {args : List ClassRef} {m : Method β}
    (hm : r.lookup access receiver name args = .ok (.method m)) :
    m.signature.Takes r.hierarchy (access.seen args) := by
  unfold lookup at hm
  split at hm
  · cases hm
  · exact Lookup.takes_of_find hr.hierarchy (fun t ht => path_wellKept hr ht) hm

/-! ## Hierarchies only widen -/

namespace Hierarchy

variable {h h' h'' : Hierarchy} {c t : ClassRef} {p : ParamKind} {a : ClassRef}
variable {args : List ClassRef}

/-- What is a kind of a class in `h` is one in `h'`. -/
def Widens (h' h : Hierarchy) : Prop := ∀ a b, h.isAssignable a b → h'.isAssignable a b

theorem Widens.refl (h : Hierarchy) : h.Widens h := fun _ _ => id

/-- A class that is not declared is a kind of itself only. -/
theorem Grows.widens (hg : h'.Grows h) : h'.Widens h := by
  intro a b hab
  by_cases ha : h.Declares a
  · rwa [hg.isAssignable ha]
  · rcases hg.wellFormed.isAssignable_iff.mp hab with rfl | ⟨ha', -⟩
    · exact isAssignable_refl
    · exact absurd ha' ha

theorem WellFormed.widens_withInterface (hh : h.WellFormed) (hok : h.withInterface c t = .ok h') :
    h'.Widens h := by
  intro a b hab
  simp only [isAssignable, Bool.or_eq_true, decide_eq_true_eq, List.contains_iff_mem] at hab ⊢
  exact hab.imp_right fun hb => (hh.mem_chain_withInterface hok).mpr (.inl hb)

namespace Widens

variable (hw : h'.Widens h)
include hw

theorem accepts (ha : p.accepts h a) : p.accepts h' a := by
  cases p with
  | any => rfl
  | ofClass c =>
    rw [ParamKind.accepts_ofClass] at ha ⊢
    exact ha.imp_left (hw a c)

theorem fits {params : List ParamKind} (hf : Signature.fits h params args) :
    Signature.fits h' params args := by
  rw [Signature.fits_iff] at hf ⊢
  exact hf.imp fun _ _ => hw.accepts

theorem acceptsAll {s : Signature} (hs : s.accepts h args) : s.accepts h' args := by
  rw [Signature.accepts_iff] at hs ⊢
  exact hs.imp_right hw.fits

/-- What a method takes, it goes on taking. -/
theorem takes {s : Signature} (hs : s.Takes h args) : s.Takes h' args := by
  rcases hs with hs | hs
  · exact .inl (hw.acceptsAll hs)
  · obtain ⟨element, helement, hvariadic, henough, hfits, hrest⟩ := Signature.acceptsMany_iff.mp hs
    exact .inr (Signature.acceptsMany_iff.mpr ⟨element, helement, hvariadic, henough, hw.fits hfits,
      fun c hc => hw.accepts (hrest c hc)⟩)

end Widens

end Hierarchy

theorem Registry.widens_applyTrait {β : Type} {r r' : Registry β} (hr : r.Sound)
    {c iface : ClassRef} (hok : r.applyTrait c iface = .ok r') :
    r'.hierarchy.Widens r.hierarchy := by
  unfold applyTrait at hok
  split at hok
  · cases hok
  · next h hh =>
    obtain ⟨-, rfl⟩ := invalidate_eq_ok hok
    rw [(extends_bumpAll _).hierarchy]
    exact hr.hierarchy.widens_withInterface hh

namespace Engine

variable {β : Type} {g : Engine β} {op : Operation β} {f : Finding β} {m : Method β}
variable {key : SiteKey} {s : Site β} {access : Access} {name : String} {receiver : Value}
variable {args : List Value}

/-- Whatever is done to an engine, its hierarchy only widens. -/
theorem widens_perform (hg : g.registry.Sound) (op : Operation β) :
    (g.perform op).registry.hierarchy.Widens g.registry.hierarchy := by
  -- only declarations and traits reach the hierarchy
  rcases registry_perform g op with ⟨f, hf, hok⟩ | ⟨cs, hcs⟩
  · cases op with
    | define d methods =>
      cases hf
      obtain ⟨p, hp, heq⟩ := Registry.define_of_map hok
      rw [← heq]
      exact (Registry.grows_define hg hp).widens
    | applyTrait c iface =>
      cases hf
      exact Registry.widens_applyTrait hg hok
    | changeClass | changeObject | applyCategory | invalidate | membersOf | versionOf =>
      -- the hierarchy is the same
      refine (vouches_perform hg ?_ ?_).hierarchy ▸ .refl _ <;> simp
    | _ => cases hf
  · rw [hcs, (Registry.vouches_materializeAll cs).hierarchy]
    exact .refl _

/-! ## Calls -/

/-- The method that was found takes the arguments that it was found for. -/
def Apt (g : Engine β) (f : Finding β) : Prop := ∀ m, f.found.target = .method m →
  m.signature.Takes g.registry.hierarchy (f.access.seen f.shape.args.toList)

/-- The methods that are remembered take what they were found for, whether or not they would be
found again. -/
theorem Reachable.apt (hg : g.Reachable) (hf : g.Recalls f) : g.Apt f := by
  suffices h : g.Reachable ∧ ∀ f, g.Recalls f → g.Apt f from h.2 f hf
  refine hg.invariant (P := fun g => g.Reachable ∧ ∀ f, g.Recalls f → g.Apt f)
    (fun settings => ⟨⟨settings, .refl⟩, fun _ h => absurd h (not_recalls_build settings)⟩) ?_
  rintro g op - ⟨hg, hapt⟩
  have hg' : (g.perform op).Reachable := hg.perform trivial
  refine ⟨hg', fun f hf m hm => ?_⟩
  rcases recalls_perform hg hf with hold | ⟨receiver, args, -, hnew⟩
  · exact (widens_perform hg.sound op).takes (hapt f hold m hm)
  · have hholds : f.Holds (g.perform op).registry := hnew.holds
    rw [Finding.Holds, hm] at hholds
    exact Registry.takes_of_lookup hg'.sound hholds

/-- The method that a call decides on takes the classes of its arguments. -/
theorem Reachable.takes_of_answers (hg : g.Reachable)
    (h : g.Answers access name receiver args (.ok (.method m))) :
    m.signature.Takes g.registry.hierarchy (access.seen (args.map Value.classOf)) := by
  rcases h with hlookup | ⟨found, hrecalls, -, hfound⟩
  · exact Registry.takes_of_lookup hg.sound hlookup.symm
  · have htakes := hg.apt hrecalls m (Except.ok.inj hfound).symm
    simpa [Shape.ofCall, ArgShape.ofArgs] using htakes

end Engine

/-- The arguments are what the access passes: none for reading a property, one for writing it. -/
def Access.Passes (access : Access) (args : List Value) : Prop :=
  match access with
  | .method => True
  | .read => args = []
  | .write => args.length = 1

theorem Access.seen_of_passes {access : Access} {args : List Value} (hpass : access.Passes args) :
    access.seen (args.map Value.classOf) = args.map Value.classOf := by
  cases access with
  | method => rfl
  | read => rw [show args = [] from hpass]; rfl
  | write =>
    obtain ⟨v, rfl⟩ := List.length_eq_one_iff.mp hpass
    rfl

namespace Method

variable {β : Type}

/-- Calling the method on a receiver runs its code with what it makes of the arguments, and these
are as its parameters have them. -/
def RunsWith (m : Method β) (h : Hierarchy) (receiver : Value) (args got : List Value) : Prop :=
  m.signature.arguments args = .ok got ∧ m.signature.Receives h got ∧
    ∀ heap, (Target.method m).enter receiver args heap =
      match m.code with
      | .body b => .running b m.signature.name got none
      | .builtin op => .finished (op.run receiver got) heap

theorem exists_runsWith {m : Method β} {h : Hierarchy} {args : List Value} (receiver : Value)
    (hargs : ∀ v ∈ args, v.Ordinary) (htakes : m.signature.Takes h (args.map Value.classOf)) :
    ∃ got, m.RunsWith h receiver args got := by
  obtain ⟨got, harguments, hreceives⟩ := Signature.receives_of_takes hargs htakes
  refine ⟨got, harguments, hreceives, fun heap => ?_⟩
  simp only [Target.enter, Target.request, harguments, Request.enter]
  cases m.code <;> rfl

end Method

namespace Engine

variable {β : Type} {g : Engine β} {access : Access} {args : List Value}

/-- Whenever a call decides on a method, through a site or without one, the method runs with values
that conform to its parameters in the hierarchy of that moment, as many as they ask for. A parameter
for floats never gets an integer. -/
theorem Reachable.arguments_conform (hg : g.Reachable) (hargs : ∀ v ∈ args, v.Ordinary)
    (hpass : access.Passes args) (receiver : Value) :
    (∀ key s m, g.sites.get? key = some s → s.access = access →
      (g.dispatch key receiver args).1 = some (.ok (.method m)) →
        ∃ got, m.RunsWith g.registry.hierarchy receiver args got) ∧
    (∀ name m, (g.decideUncached access receiver name args).1 = .ok (.method m) →
      ∃ got, m.RunsWith g.registry.hierarchy receiver args got) ∧
    ∀ n, ¬ (ParamKind.ofClass .float).Conforms g.registry.hierarchy (.int n) := by
  -- sites and uncached calls alike answer what looking up takes, so one argument serves both
  have hruns : ∀ {name m}, g.Answers access name receiver args (.ok (.method m)) →
      ∃ got, m.RunsWith g.registry.hierarchy receiver args got := by
    intro name m hanswer
    have htakes := hg.takes_of_answers hanswer
    rw [Access.seen_of_passes hpass] at htakes
    exact m.exists_runsWith receiver hargs htakes
  refine ⟨fun key s m hs haccess hm => ?_, fun name m hm => ?_, fun n => ?_⟩
  · obtain ⟨answer, hanswer, h⟩ := dispatch_answers hg hs
    rw [hm] at hanswer
    cases hanswer
    rw [haccess] at h
    exact hruns h
  · have h : g.Answers access name receiver args _ := decideUncached_answers hg access name
    rw [hm] at h
    exact hruns h
  · exact ParamKind.not_conforms_float_int hg.sound.hierarchy n

/-- The class of the sample receiver, with a method for a float. -/
def sampleHalf : Engine Unit :=
  sampleClasses.perform
    (.changeClass ⟨10⟩ (.addMethod ⟨⟨"half", [.ofClass .float], false⟩, .body ()⟩))

/-- An integer that is passed to the method arrives as one value that is no integer. -/
theorem arguments_conform_sampleHalf : ∃ m v,
    (sampleHalf.decideUncached .method sampleReceiver "half" [.int 1]).1 = .ok (.method m) ∧
      m.signature.arguments [.int 1] = .ok [v] ∧ ∀ n, v ≠ .int n := by
  have hreach : sampleHalf.Reachable :=
    ReachableBy.perform (reachableBy_sampleClasses fun _ _ _ => trivial) trivial
  have hargs : ∀ v ∈ [Value.int 1], v.Ordinary := by
    intro v hv
    cases List.mem_singleton.mp hv
    exact nofun
  obtain ⟨m, hm, hsignature⟩ : ∃ m,
      (sampleHalf.decideUncached .method sampleReceiver "half" [.int 1]).1 = .ok (.method m) ∧
        m.signature = ⟨"half", [.ofClass .float], false⟩ := ⟨_, rfl, rfl⟩
  have hpass : Access.method.Passes [.int 1] := trivial
  obtain ⟨-, huncached, hfloat⟩ := hreach.arguments_conform hargs hpass sampleReceiver
  obtain ⟨got, harguments, hreceives, -⟩ := huncached "half" m hm
  cases hreceives with
  | variadic hvariadic =>
    rw [hsignature] at hvariadic
    cases hvariadic
  | fixed hfixed hgot =>
    rw [hsignature] at hgot
    obtain ⟨v, rest, hv, hrest, rfl⟩ := List.forall₂_cons_left_iff.mp hgot
    cases hrest
    refine ⟨m, v, hm, harguments, ?_⟩
    rintro n rfl
    exact hfloat n hv

end Engine

end LateBinding
