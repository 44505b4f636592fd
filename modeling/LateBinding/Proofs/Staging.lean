import LateBinding.Proofs.ScenarioRuns
import LateBinding.Proofs.UnknownMembers

/-!
# Setting scenarios up

Before its first call, a scenario declares classes, changes them and opens sites. What the engine is
after that (`Scenario.Staged`) follows step by step: nothing of it but classes, members and sites is
new, no object has members of its own, and sites that were opened are empty.
-/

namespace LateBinding.Scenario

open Engine (Opened build)

variable {settings : Settings} {g : Engine Action} {w : World} {name : String}
variable {fields : List String} {methods : List (MethodDecl Action)} {id : Nat} {access : Access}

/-! ## Staged engines -/

/-- A change of a class that succeeds changes the registry and nothing else. -/
theorem changeClass_of_ok {c : ClassRef} {change : Change Action} {r : Registry Action}
    (hr : g.registry.changeClass c change = .ok r) : (g.changeClass c change).1 = .ok () ∧
      g.perform (.changeClass c change) = g.withRegistry r := by
  refine ⟨?_, by rw [Engine.perform_of_change rfl, hr]⟩
  rw [Engine.changeClass, Engine.onRegistry'_fst, hr]
  rfl

/-- In the engine, classes were declared under new names and changed, and sites were opened. -/
structure Staged (settings : Settings) (g : Engine Action) : Prop where
  run : Engine.Run Engine.Orderly (build settings) g
  rest : { g with sites := .empty } = (build settings).withRegistry g.registry
  plain : ∀ o : ObjectRef, Receiver.ofValue g.registry (.object o) = .plain o.cls

theorem staged_build : Staged settings (build settings) where
  run := .refl
  rest := rfl
  plain _ := rfl

section

variable (h : Staged settings g)
include h

theorem Staged.reachable : g.Reachable :=
  (show Engine.ReachableBy Engine.Orderly g from ⟨settings, h.run⟩).reachable

theorem Staged.policy : g.policy = .ofSettings settings := congrArg Engine.policy h.rest

theorem Staged.room : g.settings.cacheCapacity = settings.cacheCapacity :=
  congrArg (·.settings.cacheCapacity) h.rest

theorem Staged.resolver :
    g.resolver = { (build settings).resolver with registry := g.registry } :=
  congrArg Engine.resolver h.rest

/-! ## Classes -/

/-- An operation on classes that leaves the members of objects as they are. -/
theorem Staged.withRegistry {r : Registry Action}
    (hrun : Engine.Run Engine.Orderly (build settings) (g.withRegistry r))
    (hplain : ∀ o : ObjectRef, Receiver.ofValue r (.object o) = .ofValue g.registry (.object o)) :
    Staged settings (g.withRegistry r) where
  run := hrun
  rest := congrArg (Engine.withRegistry · r) h.rest
  plain o := (hplain o).trans (h.plain o)

/-- A class is declared if its name is new, and what else there is stays as it is. -/
theorem Staged.define (hname : g.registry.hierarchy.byName? name = none) (fields : List String)
    (methods : List (MethodDecl Action)) :
    (g.define ⟨name, none, [], false, fields⟩ methods).1 = .ok ⟨g.registry.hierarchy.size⟩ ∧
      Staged settings (g.perform (.define ⟨name, none, [], false, fields⟩ methods)) ∧
      (g.perform (.define ⟨name, none, [], false, fields⟩ methods)).sites = g.sites ∧
      (g.perform (.define ⟨name, none, [], false, fields⟩ methods)).registry.hierarchy =
        g.registry.hierarchy.push ⟨name, none, [], false, fields⟩ := by
  have hdefine : g.registry.define ⟨name, none, [], false, fields⟩ methods = _ :=
    Registry.define_of_new_name hname methods
  -- the declaration is an orderly step of the engine: it is no trait and mentions no value
  have hrun := h.run.tail
    ⟨.define ⟨name, none, [], false, fields⟩ methods, ⟨trivial, nofun⟩, rfl⟩
  rw [Engine.perform_of_change rfl, hdefine] at hrun ⊢
  exact ⟨by rw [Engine.define, Engine.onRegistry, hdefine], h.withRegistry hrun fun _ => rfl, rfl,
    rfl⟩

/-- The sole method of a class that is declared under a new name. -/
theorem Staged.soleMethod (hname : g.registry.hierarchy.byName? name = none) (fields : List String)
    (d : MethodDecl Action) :
    (g.perform (.define ⟨name, none, [], false, fields⟩ [d])).registry.SoleMethod
      ⟨g.registry.hierarchy.size⟩ (d.install .declared g.registry.nextSerial) := by
  obtain ⟨r, hr, hsole⟩ := Registry.soleMethod_define fields d h.reachable.housed
    h.reachable.sound.declared hname
  rw [Engine.perform_of_change rfl, hr]
  exact hsole

/-- A class that is declared can be changed. -/
theorem Staged.changeClass {c : ClassRef} (hc : g.registry.hierarchy.Declares c)
    (change : Change Action) :
    (g.changeClass c change).1 = .ok () ∧ Staged settings (g.perform (.changeClass c change)) ∧
      (g.perform (.changeClass c change)).sites = g.sites := by
  obtain ⟨r, hr⟩ := Registry.changeClass_of_declares hc change
  have hrestamped := Registry.membersRestamped_changeClass h.reachable.sound hr
  have hrun := h.run.tail ⟨.changeClass c change, ⟨trivial, nofun⟩, rfl⟩
  obtain ⟨hok, hengine⟩ := changeClass_of_ok hr
  rw [hengine] at hrun ⊢
  exact ⟨hok, h.withRegistry hrun fun _ => hrestamped.restamped.ofValue, rfl⟩

/-! ## Sites -/

omit h in
theorem run_openSite (hrun : Engine.Run Engine.Orderly (build settings) g) (id : Nat)
    (access : Access) (name : String) :
    Engine.Run Engine.Orderly (build settings) (g.perform (.openSite id access name)) :=
  hrun.tail ⟨.openSite id access name, ⟨trivial, nofun⟩, rfl⟩

/-- A site is opened if its number is new, and what else there is stays as it is. -/
theorem Staged.openSite (id : Nat) (hnew : g.sites.get? (.numbered id) = none) (access : Access)
    (name : String) :
    (g.openSite id access name).1 = .ok (.create id access name settings.cacheCapacity) ∧
      Staged settings (g.perform (.openSite id access name)) ∧
      (g.perform (.openSite id access name)).registry = g.registry ∧
      (g.perform (.openSite id access name)).sites =
        g.sites.insert (.numbered id) (.create id access name settings.cacheCapacity) := by
  have hopen : g.openSite id access name = (.ok (.create id access name settings.cacheCapacity),
      { g with sites :=
          g.sites.insert (.numbered id) (.create id access name settings.cacheCapacity) }) := by
    -- the number is new, so the site is made with the engine's capacity
    simp only [Engine.openSite, hnew, h.room]
  have hrun := run_openSite h.run id access name
  rw [Engine.perform, hopen] at hrun ⊢
  exact ⟨rfl, ⟨hrun, h.rest, h.plain⟩, rfl, rfl⟩

/-- A site that was opened was not called yet. -/
theorem Staged.opened (hvalid : settings.fault? = none) (hs : g.sites.get? (.numbered id) =
    some (.create id access name settings.cacheCapacity)) :
    Opened settings (.numbered id) id access name g where
  valid := hvalid
  run := h.run
  policy := h.policy
  site := hs

end

/-! ## Worlds -/

theorem World.define_of_ok {c : ClassRef}
    (hok : (w.engine.define ⟨name, none, [], false, fields⟩ methods).1 = .ok c) :
    w.define name fields methods = .ok (c, { w with
      engine := w.engine.perform (.define ⟨name, none, [], false, fields⟩ methods) }) := by
  rw [World.define, Engine.perform]
  generalize w.engine.define ⟨name, none, [], false, fields⟩ methods = out at hok
  obtain ⟨_, engine⟩ := out
  cases hok
  rfl

theorem World.change_of_ok {c : ClassRef} {change : Change Action}
    (hok : (w.engine.changeClass c change).1 = .ok ()) :
    w.change c change = .ok { w with engine := w.engine.perform (.changeClass c change) } := by
  rw [World.change, Engine.perform]
  generalize w.engine.changeClass c change = out at hok
  obtain ⟨_, engine⟩ := out
  cases hok
  rfl

theorem World.openSite_of_ok {s : Site Action}
    (hok : (w.engine.openSite id access name).1 = .ok s) :
    w.openSite id access name =
      .ok { w with engine := w.engine.perform (.openSite id access name) } := by
  rw [World.openSite, Engine.perform]
  generalize w.engine.openSite id access name = out at hok
  obtain ⟨_, engine⟩ := out
  cases hok
  rfl

/-- The first object of a world. -/
theorem create_start (c : ClassRef) (fields : List (String × Value)) :
    (World.start g).create c fields = (.object ⟨1, c⟩, ⟨g, (Heap.empty.create c fields).2⟩) := rfl

/-! ## One site -/

/-- The engine has site number 1 and no other one. -/
structure Ready (settings : Settings) (access : Access) (name : String) (g : Engine Action) : Prop
    extends Staged settings g where
  keys : g.sites.keys = [.numbered 1]
  site : g.sites.get? (.numbered 1) = some (.create 1 access name settings.cacheCapacity)

theorem Ready.opened (h : Ready settings access name g) (hvalid : settings.fault? = none) :
    Opened settings (.numbered 1) 1 access name g :=
  h.toStaged.opened hvalid h.site

section

variable (h : Staged settings g) (hsites : g.sites = .empty)
include h hsites

theorem Staged.ready (access : Access) (name : String) :
    Ready settings access name (g.perform (.openSite 1 access name)) ∧
      (g.perform (.openSite 1 access name)).registry = g.registry := by
  obtain ⟨-, hstaged, hregistry, hinsert⟩ := h.openSite 1 (hsites ▸ rfl) access name
  refine ⟨⟨hstaged, ?_, ?_⟩, hregistry⟩ <;> rw [hinsert, hsites]
  · rfl
  · rfl

/-- In a world, the first site can be opened. -/
theorem Staged.openFirst (access : Access) (name : String) (heap : Heap) :
    World.openSite ⟨g, heap⟩ 1 access name = .ok ⟨g.perform (.openSite 1 access name), heap⟩ :=
  World.openSite_of_ok (h.openSite 1 (hsites ▸ rfl) access name).1

end

/-! ## One class -/

/-- The engine in which one class was declared, which is number 8 of all classes. -/
def oneClass (settings : Settings) (name : String) (fields : List String)
    (methods : List (MethodDecl Action)) : Engine Action :=
  (build settings).perform (.define ⟨name, none, [], false, fields⟩ methods)

section

variable (hname : Hierarchy.builtin.byName? name = none)
include hname

theorem define_start (fields : List String) (methods : List (MethodDecl Action)) :
    (World.start (build settings)).define name fields methods =
      .ok (⟨8⟩, .start (oneClass settings name fields methods)) :=
  World.define_of_ok (staged_build.define hname fields methods).1

theorem staged_oneClass : Staged settings (oneClass settings name fields methods) :=
  (staged_build.define hname fields methods).2.1

theorem sites_oneClass : (oneClass settings name fields methods).sites = .empty :=
  (staged_build.define hname fields methods).2.2.1

theorem soleMethod_oneClass (d : MethodDecl Action) :
    (oneClass settings name fields [d]).registry.SoleMethod ⟨8⟩ (d.install .declared 5) :=
  staged_build.soleMethod hname fields d

theorem registry_oneClass :
    (oneClass settings name fields methods).registry = { Registry.initial with
    hierarchy := Hierarchy.builtin.push ⟨name, none, [], false, fields⟩
    declared := Registry.initial.declared.push (Registry.number 5 methods)
    nextSerial := 5 + methods.length } := by
  rw [oneClass, Engine.perform_of_change rfl,
    show Registry.define _ ⟨name, none, [], false, fields⟩ methods = _ from
      Registry.define_of_new_name hname methods]
  rfl

theorem chain_oneClass :
    (oneClass settings name fields methods).registry.hierarchy.chain ⟨8⟩ = [⟨8⟩, .object] := by
  rw [registry_oneClass hname]
  rfl

theorem declares_oneClass :
    (oneClass settings name fields methods).registry.hierarchy.Declares ⟨8⟩ :=
  Hierarchy.declares_of_mem_chain (c := ⟨8⟩)
    (by rw [chain_oneClass hname]; exact List.mem_cons_self)

theorem members_oneClass (b : ClassRef) :
    (oneClass settings name fields methods).registry.members b =
    .ofDeclared b ((oneClass settings name fields methods).registry.declaredMethods b) := by
  rw [registry_oneClass hname]
  rfl

theorem noAccessor_oneClass (property : String) :
    (oneClass settings name fields methods).registry.NoAccessor ⟨8⟩ property := by
  intro b _
  rw [members_oneClass hname]
  exact MemberTable.property?_ofDeclared

/-- The class has the methods of its declaration and those of the root. -/
theorem unknown_oneClass {member : String} (hmethods : ∀ d ∈ methods, d.signature.name ≠ member)
    (hroot : member ≠ "toString" ∧ member ≠ "equals") :
    (oneClass settings name fields methods).registry.Unknown ⟨8⟩ member := by
  intro b hb m hm
  rw [members_oneClass hname] at hm
  have hdeclared := MemberTable.holds_ofDeclared hm
  rw [chain_oneClass hname] at hb
  rw [registry_oneClass hname] at hdeclared
  -- what the chain has is the class itself, with its own declaration, and the root
  rcases List.mem_cons.mp hb with rfl | hb
  · have hown : m ∈ Registry.number 5 methods := hdeclared
    obtain ⟨d, hd, hsame⟩ := Registry.exists_of_mem_number hown
    exact hsame ▸ hmethods d hd
  · cases List.mem_singleton.mp hb
    -- the built-in methods of the root are two
    have hbuiltin : m ∈ Registry.number 0 ((builtinMethods Action).headD []) := hdeclared
    obtain ⟨d, hd, hsame⟩ := Registry.exists_of_mem_number hbuiltin
    rw [hsame]
    rcases List.mem_cons.mp hd with rfl | hd
    · exact hroot.1.symm
    · cases List.mem_singleton.mp hd
      exact hroot.2.symm

end

/-- The engine in which one class was declared, with one method that has a fixed value, and a site
for this method opened. -/
def oneMethod (settings : Settings) (cls name : String) (v : Value) : Engine Action :=
  (oneClass settings cls [] [method name [] (.constant v)]).perform (.openSite 1 .method name)

section

variable {cls : String} {v : Value} (hcls : Hierarchy.builtin.byName? cls = none)
include hcls

theorem ready_oneMethod : Ready settings .method name (oneMethod settings cls name v) :=
  ((staged_oneClass hcls).ready (sites_oneClass hcls) ..).1

theorem soleMethod_oneMethod : (oneMethod settings cls name v).registry.SoleMethod ⟨8⟩
    ((method name [] (.constant v)).install .declared 5) := by
  rw [oneMethod, ((staged_oneClass hcls).ready (sites_oneClass hcls) ..).2]
  exact soleMethod_oneClass hcls _

theorem openSite_oneMethod :
    (World.start (oneClass settings cls [] [method name [] (.constant v)])).openSite 1 .method
      name = .ok (.start (oneMethod settings cls name v)) :=
  (staged_oneClass hcls).openFirst (sites_oneClass hcls) ..

end

end LateBinding.Scenario
