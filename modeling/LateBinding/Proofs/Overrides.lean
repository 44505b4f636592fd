import LateBinding.Proofs.Arguments
import LateBinding.Proofs.SoleMethods

/-!
# Overriding a method

A fixed method whose parameters are classes can be added to a class at any time, also if its table,
its superclasses, its interfaces or categories have methods of the name. From then on, calls with
instances of just these classes run it, through any site and without one, on every receiver that
does not come to another fitting method first (`Engine.Reachable.override_runs`).

Three things work together for that:

* in its table the method takes the place of the one with its signature, and exact parameters win
  over all others there (`Registry.Unshadowed.lookup`);
* whatever was remembered for a receiver that looks for members in the class is stale after the
  change (`Engine.prevails_changeClass`);
* whatever is found later was looked up with the method in its place; and as classes that are
  declared meanwhile only let more methods fit (`Registry.Unshadowed.of_keeps`), a call that no
  method keeps from the class now was not kept from it then (`Engine.Prevails.perform`).
-/

namespace LateBinding

/-! ## The method in its table -/

namespace MemberTable

variable {β : Type} {t : MemberTable β}

theorem mem_install (m : Method β) (ms : List (Method β)) : m ∈ install m ms := by
  induction ms with
  | nil => exact List.mem_singleton_self m
  | cons old rest ih =>
    unfold install
    split
    · exact List.mem_cons_self
    · exact List.mem_cons_of_mem _ ih

theorem holds_self_addMethod (m : Method β) : (t.addMethod m).Holds m :=
  ⟨m.signature.bucket, by rw [bucket_addMethod, if_pos rfl]; exact mem_install m _⟩

end MemberTable

namespace Lookup

variable {β : Type} {h h' : Hierarchy} {t : MemberTable β} {m : Method β} {name : String}
variable {args : List ClassRef}

theorem Fits.widens (hm : Fits h t name args m) (hw : h'.Widens h) : Fits h' t name args m :=
  ⟨hm.1, hm.2.1, hw.acceptsAll hm.2.2⟩

/-- A native method that takes the arguments exactly is the choice of its table. -/
theorem fixedChoice_of_exact (hm : t.Holds m) (hnative : m.origin.isNative)
    (hexact : m.signature.acceptsExactly args) : FixedChoice h t m.signature.name args m := by
  obtain ⟨hfixed, hparams⟩ := Signature.acceptsExactly_iff.mp hexact
  have haccepts : m.signature.accepts h args :=
    Signature.accepts_iff.mpr ⟨hfixed, hparams ▸ Signature.fits_exactly⟩
  exact ⟨⟨hm, rfl, haccepts⟩, .inl hparams, fun _ _ _ _ => hnative⟩

end Lookup

/-! ## Looking it up -/

namespace Registry

variable {β : Type} {r r' : Registry β} {c : ClassRef} {receiver : Receiver} {name : String}
variable {args : List ClassRef} {m : Method β}

/-- The class is on the lookup chain of the receiver, and neither a class before it nor the receiver
itself has a fixed method which fits. -/
structure Unshadowed (r : Registry β) (c : ClassRef) (receiver : Receiver) (name : String)
    (args : List ClassRef) : Prop where
  chain : ∃ before after, r.hierarchy.chain receiver.cls = before ++ c :: after ∧
    ∀ b ∈ before, ¬ r.HasFixed name args b
  own : ∀ obj t, receiver = .own obj → r.ownMembers? obj = some t →
    ∀ x, ¬ Lookup.Fits r.hierarchy t name args x

theorem Unshadowed.mem_chain (h : r.Unshadowed c receiver name args) :
    c ∈ r.hierarchy.chain receiver.cls := by
  obtain ⟨before, after, hchain, -⟩ := h.chain
  rw [hchain]
  exact List.mem_append_right _ List.mem_cons_self

/-- The tables that are looked at before that of the class offer nothing. -/
theorem Unshadowed.path (h : r.Unshadowed c receiver name args) (hr : r.Sound) :
    ∃ before after, r.path receiver = before ++ r.members c :: after ∧
      ∀ t ∈ before, Lookup.fixedIn r.hierarchy receiver.cls name args t = .ok none := by
  obtain ⟨before, after, hchain, hbefore⟩ := h.chain
  have hclass : r.classPath receiver.cls =
      before.map r.members ++ r.members c :: after.map r.members := by
    rw [classPath, hchain, List.map_append, List.map_cons]
  -- classes before it on the chain offer nothing that fits
  have hnone : ∀ t ∈ before.map r.members,
      Lookup.fixedIn r.hierarchy receiver.cls name args t = .ok none := by
    intro t ht
    obtain ⟨b, hb, rfl⟩ := List.mem_map.mp ht
    exact (fixedIn_members_eq_none hr _ b).mpr (hbefore b hb)
  cases receiver with
  | plain => exact ⟨_, _, hclass, hnone⟩
  -- members of the object itself come before all classes
  | own obj =>
    refine ⟨(r.ownMembers? obj).toList ++ before.map r.members, after.map r.members, ?_,
      fun t ht => (List.mem_append.mp ht).elim (fun ht => ?_) (hnone t)⟩
    · rw [List.append_assoc, ← hclass]
      rfl
    · have hown := Option.mem_toList.mp ht
      exact (Lookup.fixedIn_eq_none_iff (hr.ownMembers_wellKept hown) hr.hierarchy).mpr
        (h.own obj t rfl hown)

/-- If nothing shadows the class, its native method for exactly these arguments is found. -/
theorem Unshadowed.lookup (h : r.Unshadowed c receiver m.signature.name args) (hr : r.Sound)
    (hm : (r.members c).Holds m) (hnative : m.origin.isNative)
    (hexact : m.signature.acceptsExactly args) :
    r.lookup .method receiver m.signature.name args = .ok (.method m) := by
  obtain ⟨before, after, hpath, hbefore⟩ := h.path hr
  have hoffer : Lookup.fixedIn r.hierarchy receiver.cls m.signature.name args (r.members c) =
      .ok (some m) :=
    (Lookup.fixedIn_eq_some_iff (hr.members_wellKept c) hr.hierarchy).mpr
      (Lookup.fixedChoice_of_exact hm hnative hexact)
  -- the first table that offers anything is the one of the class, and it offers its exact method
  have hfind : Lookup.findFixed r.hierarchy (r.path receiver) receiver.cls m.signature.name args =
      .ok (some m) := by
    rw [Lookup.findFixed, hpath, Lookup.firstOffer_of_first hbefore (by simp [hoffer]), hoffer]
  obtain ⟨info, hinfo⟩ := (Hierarchy.declares_of_mem_chain h.mem_chain).find
  simp only [Registry.lookup, hinfo, Lookup.find, Lookup.findMethod, hfind]

/-! ### While no members change -/

theorem keeps_of_twins (hr : r.Sound) (h : r'.Twins r) : r'.Keeps r :=
  ⟨⟨hr.hierarchy, h.hierarchy ▸ hr.hierarchy, fun c _ => by rw [h.hierarchy]⟩,
    fun c _ => h.members c, h.ownMembers?⟩

/-- What does not shadow a class did not do so before. -/
theorem Unshadowed.of_keeps (h : r'.Unshadowed c receiver name args) (hk : r'.Keeps r)
    (hreceiver : r.hierarchy.Declares receiver.cls) : r.Unshadowed c receiver name args where
  chain := by
    obtain ⟨before, after, hchain, hbefore⟩ := h.chain
    rw [hk.hierarchy.chain hreceiver] at hchain
    refine ⟨before, after, hchain, fun b hb ⟨x, hx⟩ => hbefore b hb ⟨x, ?_⟩⟩
    have hdeclares : r.hierarchy.Declares b :=
      hk.hierarchy.wellFormed.declares_mem_chain (hchain ▸ List.mem_append_left _ hb)
    rw [hk.members b hdeclares]
    exact hx.widens hk.hierarchy.widens
  own obj t hobj ht x hx :=
    h.own obj t hobj ((hk.own obj).trans ht) x (hx.widens hk.hierarchy.widens)

end Registry

/-! ## The method in force -/

namespace Engine

variable {β : Type} {g g' : Engine β} {op : Operation β} {c : ClassRef} {m : Method β}
variable {d : MethodDecl β} {classes : List ClassRef} {v : Value} {args : List Value}

/-- The operation changes the members of no class or object and applies no trait. -/
def Quiet (_ : Engine β) : Operation β → Prop
  | .changeClass .. | .changeObject .. | .applyCategory .. | .applyTrait .. => False
  | _ => True

theorem keeps_perform (hg : g.registry.Sound) (hop : Quiet g op) :
    (g.perform op).registry.Keeps g.registry := by
  -- of the quiet operations those that reach the registry declare classes, stamp anew or create
  -- cells
  rcases registry_perform g op with ⟨f, hf, hok⟩ | ⟨cs, hcs⟩
  · cases op with
    | define d methods =>
      cases hf
      obtain ⟨p, hp, heq⟩ := Registry.define_of_map hok
      exact heq ▸ Registry.keeps_define hg hp
    | invalidate =>
      cases hf
      rw [(Registry.invalidate_eq_ok hok).2]
      exact Registry.keeps_of_twins hg (Registry.twins_bumpAll _)
    | membersOf c | versionOf c =>
      cases hf
      rw [Registry.materialize_eq_ok hok]
      exact Registry.keeps_of_twins hg Registry.twins_ensureClass
    | changeClass | changeObject | applyCategory | applyTrait => exact hop.elim
    | _ => cases hf
  · rw [hcs]
    exact Registry.keeps_of_twins hg (Registry.twins_materializeAll cs)

/-- The finding is about a call that no method keeps from the class. -/
structure Concerns (g : Engine β) (f : Finding β) (c : ClassRef) (called : String)
    (classes : List ClassRef) : Prop where
  access : f.access = .method
  name : f.name = called
  args : f.shape.args.toList = classes
  unshadowed : g.registry.Unshadowed c f.shape.receiver called classes

/-- The method is in force for the arguments: the class has it, and all that is recalled of calls
that no method keeps from the class, under a current guard, is that they run it. -/
structure Prevails (g : Engine β) (c : ClassRef) (m : Method β) (classes : List ClassRef) :
    Prop where
  declares : g.registry.hierarchy.Declares c
  native : m.origin.isNative
  exact : m.signature.acceptsExactly classes
  holds : (g.registry.members c).Holds m
  recalled : ∀ f, g.Recalls f → f.found.guard.isCurrent g.registry →
    g.Concerns f c m.signature.name classes → f.found.target = .method m

/-- What is true of such a call is that it runs the method. -/
theorem Concerns.target {f : Finding β} (h : g.Concerns f c m.signature.name classes)
    (hg : g.registry.Sound) (hm : (g.registry.members c).Holds m) (hnative : m.origin.isNative)
    (hexact : m.signature.acceptsExactly classes) (hf : f.Holds g.registry) :
    f.found.target = .method m := by
  rw [Finding.Holds, h.access, h.name, h.args, h.unshadowed.lookup hg hm hnative hexact] at hf
  exact (Except.ok.inj hf).symm

/-- A method with classes for parameters is in force as soon as it is added: nothing that was
remembered before is still current for a receiver that would find it. -/
theorem prevails_changeClass (hg : g.Reachable) (hexact : d.signature.acceptsExactly classes)
    (hok : (g.changeClass c (.addMethod d)).1 = .ok ()) :
    (g.changeClass c (.addMethod d)).2.Prevails c (d.install .injected g.registry.nextSerial)
      classes := by
  have hg' : (g.changeClass c (.addMethod d)).2.Reachable :=
    hg.perform (show Anything g (.changeClass c (.addMethod d)) from trivial)
  obtain ⟨r, hr, heq⟩ := onRegistry'_eq_ok hok
  have hregistry : (g.changeClass c (.addMethod d)).2.registry = r := congrArg Engine.registry heq
  have hrestamped := (Registry.membersRestamped_changeClass hg.sound hr).restamped
  obtain ⟨hhierarchy, hmembers⟩ := Registry.members_changeClass hr
  have hself : c ∈ g.registry.hierarchy.chain c := by
    obtain ⟨r₁, hdisturbs, -⟩ := hrestamped
    exact hdisturbs.self
  have hholds : (r.members c).Holds (d.install .injected g.registry.nextSerial) := by
    rw [hmembers, if_pos rfl]
    exact MemberTable.holds_self_addMethod _
  refine ⟨?_, rfl, hexact, hregistry ▸ hholds, fun f hf hcur hf' => ?_⟩
  · rw [hregistry, hhierarchy]
    exact Hierarchy.declares_of_mem_chain hself
  · have hf : (g.perform (.changeClass c (.addMethod d))).Recalls f := hf
    -- what is recalled was recalled before, or it was looked up after the method was there
    rcases recalls_perform hg hf with hold | ⟨_, _, -, hnew⟩
    · -- the guard is of an heir of the class, and these were stamped anew
      have hfounded := hg.founded hold
      rw [hregistry] at hcur
      have hspared := ((Guard.isCurrent_restamped_iff hrestamped hfounded.issued).mp hcur).2
      rw [hfounded.isFor.1, ← hhierarchy, ← hregistry] at hspared
      exact absurd hf'.unshadowed.mem_chain hspared
    · exact hf'.target hg'.sound (hregistry ▸ hholds) rfl hexact hnew.holds

/-- It stays in force while no members change. -/
theorem Prevails.perform (h : g.Prevails c m classes) (hg : g.Reachable) (hop : Quiet g op) :
    (g.perform op).Prevails c m classes := by
  have hg' : (g.perform op).Reachable := hg.perform trivial
  have hkeeps := keeps_perform hg.sound hop
  have hlater := later_perform hg.sound op
  have hholds : ((g.perform op).registry.members c).Holds m := hkeeps.members c h.declares ▸ h.holds
  refine ⟨hlater.declares c h.declares, h.native, h.exact, hholds, fun f hf hcur hf' => ?_⟩
  rcases recalls_perform hg hf with hold | ⟨_, _, -, hnew⟩
  · have hfounded := hg.founded hold
    exact h.recalled f hold (Guard.isCurrent_of_later hlater hfounded.issued hcur)
      ⟨hf'.access, hf'.name, hf'.args, hf'.unshadowed.of_keeps hkeeps hfounded.receiver⟩
  · exact hf'.target hg'.sound hholds h.native h.exact hnew.holds

theorem Prevails.run (h : g.Prevails c m classes) (hg : g.Reachable) (hrun : Run Quiet g g') :
    g'.Prevails c m classes := by
  suffices hboth : g'.Reachable ∧ g'.Prevails c m classes from hboth.2
  refine hrun.preserves (P := fun g' => g'.Reachable ∧ g'.Prevails c m classes) ?_ ⟨hg, h⟩
  rintro g op hop ⟨hg, h⟩
  exact ⟨hg.perform trivial, h.perform hg hop⟩

/-- Calls that no method keeps from the class are answered with the method. -/
theorem Prevails.answer_eq {answer : Except DispatchError (Target β)}
    (h : g.Prevails c m (args.map Value.classOf)) (hg : g.Reachable)
    (hclear : g.registry.Unshadowed c (.ofValue g.registry v) m.signature.name
      (args.map Value.classOf))
    (hanswer : g.Answers .method m.signature.name v args answer) : answer = .ok (.method m) := by
  rcases hanswer with hlookup | ⟨found, hrecalls, hcur, rfl⟩
  · rw [hlookup]
    exact hclear.lookup hg.sound h.holds h.native h.exact
  · refine congrArg Except.ok (h.recalled _ hrecalls hcur ⟨rfl, rfl, ?_, hclear⟩)
    rw [Shape.ofCall, ArgShape.ofArgs, ArgShape.toList_ofClasses]

end Engine

/-! ## Calls -/

theorem ParamKind.convert_of_classOf (v : Value) : (ofClass v.classOf).convert v = v := by
  refine convert_of_not_widened (Option.eq_none_iff_forall_ne_some.mpr fun w hw => ?_)
  obtain ⟨hparam, n, rfl, -⟩ := widened?_eq_some hw
  exact absurd (ParamKind.ofClass.inj hparam) (by simp only [Value.classOf]; decide)

/-- Instances of just the classes of the parameters are handed on as they are. -/
theorem Signature.arguments_of_exact {s : Signature} {args : List Value}
    (hexact : s.acceptsExactly (args.map Value.classOf)) : s.arguments args = .ok args := by
  obtain ⟨hfixed, hparams⟩ := acceptsExactly_iff.mp hexact
  -- each argument is of just the class that its parameter names, so none is widened
  have hsame : ∀ args : List Value,
      (((args.map Value.classOf).map ParamKind.ofClass).zip args).map
        (fun p => p.1.convert p.2) = args := by
    intro args
    induction args with
    | nil => rfl
    | cons v rest ih =>
      simp only [List.map_cons, List.zip_cons_cons, ih, ParamKind.convert_of_classOf]
  simp only [arguments, hfixed, hparams, hsame, List.length_map, List.drop_length,
    List.append_nil, Bool.false_eq_true, if_false]

namespace Engine

variable {β : Type} {g g' : Engine β} {c : ClassRef} {d : MethodDecl β} {classes : List ClassRef}
variable {v : Value} {args : List Value}

/-- An exact override is what calls run. In any engine, let a fixed method with classes for
parameters be added to a class. From then on, as long as no members are changed and no trait is
applied, calls of its name with instances of just these classes run it with the arguments as they
are: through every site for the method, whatever it has cached, and without a site. That holds for
every receiver with the class on its lookup chain for which no fixed method that fits comes first,
be it one of its own. -/
theorem Reachable.override_runs (hg : g.Reachable) (hfixed : d.signature.variadic = false)
    (hparams : d.signature.params = classes.map .ofClass)
    (hok : (g.changeClass c (.addMethod d)).1 = .ok ())
    (hrun : Run Quiet (g.changeClass c (.addMethod d)).2 g')
    (hargs : args.map Value.classOf = classes)
    (hclear : g'.registry.Unshadowed c (.ofValue g'.registry v) d.signature.name classes) :
    (∀ key s, g'.sites.get? key = some s → s.access = .method → s.name = d.signature.name →
      (g'.dispatch key v args).1 =
        some (.ok (.method (d.install .injected g.registry.nextSerial)))) ∧
    (g'.decideUncached .method v d.signature.name args).1 =
      .ok (.method (d.install .injected g.registry.nextSerial)) ∧
    ∀ heap, (Target.method (d.install .injected g.registry.nextSerial)).enter v args heap =
      (Request.run d.code d.signature.name args).enter v heap := by
  subst hargs
  have hexact : d.signature.acceptsExactly (args.map Value.classOf) :=
    Signature.acceptsExactly_iff.mpr ⟨hfixed, hparams⟩
  have hafter : (g.changeClass c (.addMethod d)).2.Reachable :=
    hg.perform (show Anything g (.changeClass c (.addMethod d)) from trivial)
  have hg' : g'.Reachable := hafter.run hrun
  -- the method prevails when it is added, and quiet operations keep it so
  have hprevails := (prevails_changeClass hg hexact hok).run hafter hrun
  refine ⟨fun key s hs haccess hname => ?_, ?_, fun heap => ?_⟩
  · obtain ⟨answer, hanswer, hanswers⟩ : ∃ answer, (g'.dispatch key v args).1 = some answer ∧
        g'.Answers s.access s.name v args answer := dispatch_answers hg' hs
    rw [haccess, hname] at hanswers
    rw [hanswer, hprevails.answer_eq hg' hclear hanswers]
  · exact hprevails.answer_eq hg' hclear (decideUncached_answers hg' .method d.signature.name)
  · have harguments : (d.install .injected g.registry.nextSerial).signature.arguments args =
        .ok args := Signature.arguments_of_exact hexact
    simp only [Target.enter, Target.request, harguments]
    rfl

/-- A method for instances of the second class. -/
def sampleOverride : MethodDecl Unit := ⟨⟨"m", [.ofClass ⟨9⟩], false⟩, .body ()⟩

/-- After the sample call, its method was overridden and a subclass of its receiver's declared. -/
def sampleHeir : Engine Unit :=
  (sampleCall.changeClass ⟨10⟩ (.addMethod sampleOverride)).2.perform
    (.define ⟨"S", some ⟨10⟩, [], false, []⟩ [])

/-- The site of the sample call, which has a method for anything, runs the new one from then on,
for instances of the subclass as well. -/
theorem override_runs_sampleHeir :
    (∃ m, (sampleCall.dispatch (.numbered 0) sampleReceiver [sampleArgument]).1 =
      some (.ok (.method m)) ∧ m.signature.params = [.any]) ∧
    ∀ v ∈ [sampleReceiver, .object ⟨3, ⟨11⟩⟩],
      (sampleHeir.dispatch (.numbered 0) v [sampleArgument]).1 =
        some (.ok (.method (sampleOverride.install .injected sampleCall.registry.nextSerial))) := by
  have hok : (sampleCall.changeClass ⟨10⟩ (.addMethod sampleOverride)).1 = .ok () := rfl
  have hrun : Run Quiet (sampleCall.changeClass ⟨10⟩ (.addMethod sampleOverride)).2 sampleHeir :=
    .single ⟨.define ⟨"S", some ⟨10⟩, [], false, []⟩ [], trivial, rfl⟩
  have hafter : (sampleCall.changeClass ⟨10⟩ (.addMethod sampleOverride)).2.Reachable :=
    reachable_sampleCall.perform
      (show Anything sampleCall (.changeClass ⟨10⟩ (.addMethod sampleOverride)) from trivial)
  have hheir : sampleHeir.Reachable := hafter.run hrun
  have hclear : ∀ v ∈ [sampleReceiver, .object ⟨3, ⟨11⟩⟩], sampleHeir.registry.Unshadowed ⟨10⟩
      (.ofValue sampleHeir.registry v) "m" [⟨9⟩] := by
    refine List.forall_mem_cons.mpr ⟨⟨⟨[], _, rfl, nofun⟩, nofun⟩, List.forall_mem_singleton.mpr
      ⟨⟨[⟨11⟩], _, rfl, List.forall_mem_singleton.mpr ?_⟩, nofun⟩⟩
    -- the subclass has no methods
    exact (Registry.fixedIn_members_eq_none hheir.sound ⟨11⟩ ⟨11⟩).mp rfl
  obtain ⟨s, hs, haccess, hname⟩ : ∃ s, sampleHeir.sites.get? (.numbered 0) = some s ∧
      s.access = .method ∧ s.name = "m" := ⟨_, rfl, rfl, rfl⟩
  refine ⟨⟨_, rfl, rfl⟩, fun v hv => ?_⟩
  exact (reachable_sampleCall.override_runs rfl rfl hok hrun rfl (hclear v hv)).1 _ s hs haccess
    hname

end Engine

end LateBinding
