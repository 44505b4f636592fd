import LateBinding.Proofs.KnownValues
import LateBinding.Proofs.Sessions
import LateBinding.Proofs.TwinEngines

/-!
# Sessions that cannot be told apart

Two sessions are twins if their engines are, and their objects, variables, kept targets and labels
are the same. Then the same command, and each step of the machine that runs it, makes twins of
them, however differently their sites and resolvers come to the answers (`Focus.twins_step`).

What commands tell about sites, the resolver and the policy is left out of the comparison: an
`Observation` is an answer without it.

Arguments of unknown classes are what caches may get wrong, so the relations also say that all
values at hand are known to the engine.
-/

namespace LateBinding.Session

/-! ## Observations -/

/-- What an answer tells a program that does not care how answers are found. -/
inductive Observation
  | told (a : Answer)
  | found (r : Except DispatchError TargetReport)
  | returned (r : Except Failure Value)
  /-- The results of a drive that differ from the ones before. -/
  | series (results : List (Nat × Except Failure Value))
  | opened (id : Nat) (access : Access) (name : String)
  /-- Counters, versions, the condition of sites, and texts that show them. -/
  | monitoring

def Answer.observed : Answer → Observation
  | .resolution r _ => .found (r.map (·.1))
  | .result r | .siteResult r _ => .returned r
  | .driven _ results _ => .series results
  | .opened id access name _ _ => .opened id access name
  | .versions _ | .count _ | .counters _ | .guard _ | .status _ | .report _ | .reports _
  | .metrics _ | .policy _ | .verdict _ | .text _ => .monitoring
  | a => .told a

/-- What the reply to a command lets observe: its answer, and those of the commands in bodies. -/
def Reply.observed (r : Reply) : Observation × List Observation :=
  (r.answer.observed, r.inner.map Answer.observed)

variable {s' s s₁ : State} {g' g : Engine Body} {key : SiteKey}

/-! ## Twin states -/

/-- The engine knows all values that variables and fields hold. -/
structure State.Settled (s : State) : Prop where
  bindings : ∀ name v, s.bindings.get? name = some v → s.engine.Known v
  heap : s.heap.KnownTo s.engine

/-- The states differ at most in what makes answers fast or is there for monitoring. -/
structure State.Twins (s' s : State) : Prop where
  engine : s'.engine.Twins s.engine
  heap : s'.heap = s.heap
  bindings : s'.bindings = s.bindings
  kept : ∀ label, (s'.kept.get? label).map (·.target) = (s.kept.get? label).map (·.target)
  labels : s'.labels = s.labels
  inner : s'.inner.map Answer.observed = s.inner.map Answer.observed
  settled : s.Settled

/-- What a session knows, it still knows after commands. -/
theorem State.LeadsTo.knows (h : s.LeadsTo s₁) (hs : s.engine.Reachable) {v : Value}
    (hv : s.engine.Known v) : s₁.engine.Known v := by
  suffices hknown : s₁.engine.Reachable ∧ s₁.engine.Known v from hknown.2
  refine Engine.Run.preserves (P := fun g => g.Reachable ∧ g.Known v) h ?_ ⟨hs, hv⟩
  rintro g op - ⟨hg, hv⟩
  exact ⟨hg.perform trivial, fun o ho => (Engine.later_perform hg.sound op).declares _ (hv o ho)⟩

namespace State

theorem Twins.reachable (h : s'.Twins s) : s.engine.Reachable := h.engine.orderly.reachable

theorem Twins.registry (h : s'.Twins s) : s'.registry.Twins s.registry := h.engine.registry

theorem Twins.hierarchy (h : s'.Twins s) : s'.hierarchy = s.hierarchy := h.registry.hierarchy

theorem Twins.withEngine (h : s'.Twins s) (hg : g'.Twins g)
    (hlead : s.LeadsTo { s with engine := g }) :
    State.Twins { s' with engine := g' } { s with engine := g } :=
  { h with
    engine := hg
    settled :=
      { bindings := fun name v hv => hlead.knows h.reachable (h.settled.bindings name v hv)
        heap := fun ref name v hv => hlead.knows h.reachable (h.settled.heap ref name v hv) } }

/-- The same operation on their engines makes twins of twins. -/
theorem Twins.perform (h : s'.Twins s) (op : Engine.Operation Body)
    (hop : Engine.Orderly s.engine op) :
    State.Twins { s' with engine := s'.engine.perform op }
      { s with engine := s.engine.perform op } :=
  h.withEngine (h.engine.perform hop) (.of_perform op rfl)

theorem Twins.withBindings (h : s'.Twins s) {bindings : Table String Value}
    (hbindings : ∀ name v, bindings.get? name = some v → s.engine.Known v) :
    State.Twins { s' with bindings } { s with bindings } :=
  { h with bindings := rfl, settled := { h.settled with bindings := hbindings } }

theorem Twins.bind (h : s'.Twins s) (name : String) {v : Value} (hv : s.engine.Known v) :
    (s'.bind name v).Twins (s.bind name v) := by
  unfold State.bind
  rw [h.bindings]
  -- under the new name there is the value, under the others what was there
  refine h.withBindings fun name' w hw => ?_
  rw [Table.get?_insert] at hw
  split at hw
  · cases hw
    exact hv
  · exact h.settled.bindings name' w hw

theorem Twins.withHeap (h : s'.Twins s) {heap : Heap} (hheap : heap.KnownTo s.engine) :
    State.Twins { s' with heap } { s with heap } :=
  { h with heap := rfl, settled := { h.settled with heap := hheap } }

theorem Twins.keep (h : s'.Twins s) (label : Option String) (t : Target Body)
    (guard' guard : Option Guard) : (s'.keep label t guard').Twins (s.keep label t guard) := by
  cases label with
  | none => exact h
  | some l =>
    -- guards may differ, as versions do, but what is observed of a kept target is the target
    refine { h with kept := fun label => ?_, settled := { h.settled with } }
    simp only [State.keep, Table.get?_insert]
    split
    · rfl
    · exact h.kept label

/-- Under each label both have kept the same target, or nothing. -/
theorem Twins.kept_cases (h : s'.Twins s) (label : String) :
    (s'.kept.get? label = none ∧ s.kept.get? label = none) ∨
      ∃ k' k, s'.kept.get? label = some k' ∧ s.kept.get? label = some k ∧ k'.target = k.target := by
  have hkept := h.kept label
  cases hk : s.kept.get? label with
  | none =>
    rw [hk, Option.map_none, Option.map_eq_none_iff] at hkept
    exact .inl ⟨hkept, rfl⟩
  | some k =>
    rw [hk, Option.map_some] at hkept
    obtain ⟨k', hk', htarget⟩ := Option.map_eq_some_iff.mp hkept
    exact .inr ⟨k', k, hk', rfl, htarget⟩

/-- Both have a site under a key, or neither has. -/
theorem Twins.site_cases (h : s'.Twins s) (key : SiteKey) :
    (s'.engine.sites.get? key = none ∧ s.engine.sites.get? key = none) ∨
      ∃ site' site, s'.engine.sites.get? key = some site' ∧
        s.engine.sites.get? key = some site := by
  -- twin engines have sites under the same keys, whatever these sites are like
  have hcontains : (s'.engine.sites.get? key).isSome = (s.engine.sites.get? key).isSome :=
    h.engine.contains
  cases hs : s.engine.sites.get? key with
  | none =>
    rw [hs] at hcontains
    exact .inl ⟨Option.not_isSome_iff_eq_none.mp (ne_true_of_eq_false hcontains), rfl⟩
  | some site =>
    rw [hs] at hcontains
    obtain ⟨site', hs'⟩ := Option.isSome_iff_exists.mp hcontains
    exact .inr ⟨site', site, hs', rfl⟩

theorem Twins.note (h : s'.Twins s) {a' a : Answer} (ha : a'.observed = a.observed) :
    (s'.note a').Twins (s.note a) :=
  { h with inner := congrArg₂ List.cons ha h.inner, settled := { h.settled with } }

/-! ### Terms -/

mutual

theorem value_congr (h : s'.bindings = s.bindings) : ∀ t, s'.value t = s.value t
  | .list items => congrArg Value.list (values_congr h items)
  | .variable name => by rw [value, value, h]
  | .nil | .bool _ | .int _ | .float _ | .str _ => rfl

theorem values_congr (h : s'.bindings = s.bindings) : ∀ ts, s'.values ts = s.values ts
  | [] => rfl
  | t :: ts => congrArg₂ List.cons (value_congr h t) (values_congr h ts)

end

theorem Settled.value (h : s.Settled) : ∀ t : Term, s.engine.Known (s.value t)
  | .variable name => by
    rw [State.value]
    cases hv : s.bindings.get? name with
    | none => exact nofun
    | some v => exact h.bindings name v hv
  | .nil | .bool _ | .int _ | .float _ | .str _ | .list _ => nofun

theorem Settled.values (h : s.Settled) (ts : List Term) :
    ∀ v ∈ s.values ts, s.engine.Known v := by
  induction ts with
  | nil => exact nofun
  | cons t ts ih => exact List.forall_mem_cons.mpr ⟨h.value t, ih⟩

section

variable (h : s'.Twins s)
include h

theorem Twins.value : s'.value = s.value := funext (value_congr h.bindings)

theorem Twins.values : s'.values = s.values := funext (values_congr h.bindings)

theorem Twins.cls : s'.cls = s.cls := by
  funext c
  unfold State.cls
  rw [h.hierarchy]

theorem Twins.param : s'.param = s.param := by
  funext p
  unfold State.param
  rw [h.cls]

theorem Twins.method : s'.method = s.method := by
  funext m
  unfold State.method
  rw [h.param]

theorem Twins.header : s'.header = s.header := by
  funext d
  unfold State.header
  rw [h.cls]

theorem Twins.change : s'.change = s.change := by
  funext change
  unfold State.change
  rw [h.method, h.param]

theorem Twins.site? : s'.site? = s.site? := by
  funext t
  unfold State.site?
  rw [h.labels]
  cases t with
  | numbered => simp only [h.engine.contains]
  | labelled => rfl

end

/-! ## Commands that make no calls -/

/-- Twins answer alike and stay twins. -/
structure TwinEffects (p' p : Answer × State) : Prop where
  answer : p'.1.observed = p.1.observed
  state : p'.2.Twins p.2

theorem Twins.say (h : s'.Twins s) {a' a : Answer} (ha : a'.observed = a.observed) :
    TwinEffects (s'.say a') (s.say a) :=
  ⟨ha, h⟩

/-- Whatever twins tell about themselves, it is not compared. -/
theorem Twins.monitor (h : s'.Twins s) {a' a : Answer} (ha' : a'.observed = .monitoring)
    (ha : a.observed = .monitoring) : TwinEffects (s'.say a') (s.say a) :=
  h.say (ha'.trans ha.symm)

/-- An operation on the engine that answers alike. -/
theorem Twins.onEngine {α : Type} (h : s'.Twins s) (op : Engine.Operation Body)
    {f : Engine Body → Except DispatchError α × Engine Body} {answer' answer : α → Answer}
    (hop : Engine.Orderly s.engine op) (hperform : ∀ g, g.perform op = (f g).2)
    (hresult : (f s'.engine).1 = (f s.engine).1)
    (hanswer : ∀ a, (answer' a).observed = (answer a).observed) :
    TwinEffects (s'.onEngine f answer') (s.onEngine f answer) := by
  have hstate := h.perform op hop
  rw [hperform, hperform] at hstate
  unfold State.onEngine
  -- one case split on the result serves both sides, as the results are equal
  generalize f s'.engine = out', f s.engine = out at hstate hresult
  obtain ⟨r', g'⟩ := out'
  obtain ⟨r, g⟩ := out
  obtain rfl : r' = r := hresult
  cases r' with
  | error e => exact ⟨rfl, hstate⟩
  | ok a => exact ⟨hanswer a, hstate⟩

/-- A change of classes or members that is no trait. -/
theorem Twins.doOnEngine (h : s'.Twins s) (op : Engine.Operation Body)
    {f : Registry Body → Except DispatchError (Registry Body)} (hop : Engine.Orderly s.engine op)
    (hf : op.change? = some f)
    (hperform : ∀ g : Engine Body, g.perform op = (g.onRegistry' f).2) :
    TwinEffects (s'.doOnEngine (·.onRegistry' f)) (s.doOnEngine (·.onRegistry' f)) :=
  h.onEngine op hop hperform (h.engine.onRegistry' hop.2 hf) fun _ => rfl

/-- What is observed of an answer about a site must not depend on the site. -/
theorem Twins.onSite (h : s'.Twins s) {answer' answer : Site Body → Answer} {o : Observation}
    (hanswer' : ∀ site, (answer' site).observed = o)
    (hanswer : ∀ site, (answer site).observed = o) :
    TwinEffects (s'.onSite key answer') (s.onSite key answer) := by
  unfold State.onSite
  rcases h.site_cases key with ⟨hs', hs⟩ | ⟨site', site, hs', hs⟩
  · rw [hs', hs]
    exact h.say rfl
  · rw [hs', hs]
    exact h.say ((hanswer' site').trans (hanswer site).symm)

theorem Twins.onSiteOf (h : s'.Twins s) (t : SiteTerm) {answer' answer : Site Body → Answer}
    {o : Observation} (hanswer' : ∀ site, (answer' site).observed = o)
    (hanswer : ∀ site, (answer site).observed = o) :
    TwinEffects (s'.onSiteOf t answer') (s.onSiteOf t answer) := by
  unfold State.onSiteOf withSite
  rw [h.site?]
  split
  · exact h.onSite hanswer' hanswer
  · exact h.say rfl

section

variable (h : s'.Twins s)
include h

theorem Twins.describeClass (c : ClassRef) :
    TwinEffects (s'.describeClass c) (s.describeClass c) := by
  -- a report is read off the declarations, which are the same
  have hreport : ∀ info,
      ClassReport.ofClass s'.registry c info = ClassReport.ofClass s.registry c info := by
    intro info
    unfold ClassReport.ofClass Registry.declaredMethods
    rw [h.registry.hierarchy, h.registry.declared]
  unfold State.describeClass
  rw [h.hierarchy]
  split
  · exact h.say rfl
  · exact h.say (by rw [hreport])

theorem Twins.examineParam (p : ParamTerm) (args : List ClassTerm) (others : List ParamTerm)
    (values : List Term) :
    TwinEffects (s'.examineParam p args others values) (s.examineParam p args others values) := by
  unfold State.examineParam
  rw [h.hierarchy, h.param, h.cls, h.values]
  exact h.say rfl

theorem Twins.members (c : ClassRef) (names : List String) :
    TwinEffects (s'.members c names) (s.members c names) :=
  h.onEngine (.membersOf c) ⟨trivial, nofun⟩ (fun _ => rfl) h.engine.membersOf
    fun t => by rw [h.hierarchy]

theorem Twins.ownMembers (object : Value) (names : List String) :
    TwinEffects (s'.ownMembers object names) (s.ownMembers object names) := by
  unfold State.ownMembers
  split
  · exact h.say rfl
  · exact h.say (by rw [h.registry.ownMembers?, h.hierarchy])

theorem Twins.preview (c : ClassRef) (change : Change Body) (names : List String) :
    TwinEffects (s'.preview c change names) (s.preview c change names) :=
  h.onEngine (.membersOf c) ⟨trivial, nofun⟩ (fun _ => rfl) h.engine.membersOf
    fun t => by rw [h.hierarchy, h.registry.nextSerial]

theorem Twins.versions (cs : List ClassRef) : TwinEffects (s'.versions cs) (s.versions cs) := by
  -- The engines stay twins from class to class, so the induction is over both folds at once.
  let step (acc : List (Except DispatchError Nat) × Engine Body) (c : ClassRef) :=
    (acc.1 ++ [(acc.2.versionOf c).1], (acc.2.versionOf c).2)
  suffices hfold : ∀ acc' acc : List (Except DispatchError Nat) × Engine Body,
      acc'.2.Twins acc.2 → (cs.foldl step acc').2.Twins (cs.foldl step acc).2 from
    ⟨rfl, h.withEngine (hfold _ _ h.engine) (leadsTo_versions cs)⟩
  induction cs with
  | nil => exact fun _ _ hacc => hacc
  | cons c cs ih =>
    intro acc' acc hacc
    have hop : Engine.Orderly acc.2 (.versionOf c) := ⟨trivial, nofun⟩
    exact ih _ _ (hacc.perform hop)

theorem Twins.changeObject (object : Value) (change : Change Body) :
    TwinEffects (s'.changeObject object change) (s.changeObject object change) := by
  unfold State.changeObject
  split
  · exact h.say rfl
  · next o _ =>
    exact h.doOnEngine (.changeObject o change) ⟨trivial, nofun⟩ rfl fun _ => rfl

theorem Twins.create (label : String) {c : ClassRef} (hc : s.hierarchy.Declares c)
    {fields : List (String × Value)} (hfields : ∀ f ∈ fields, s.engine.Known f.2) :
    TwinEffects (s'.create label c fields) (s.create label c fields) := by
  unfold State.create
  rw [h.heap]
  refine ⟨rfl, (h.withHeap (h.settled.heap.create c hfields)).bind label ?_⟩
  intro o ho
  cases ho
  exact hc

theorem Twins.readField (object : Value) (name : String) :
    TwinEffects (s'.readField object name) (s.readField object name) := by
  unfold State.readField
  rw [h.heap]
  split
  · exact h.say rfl
  · exact h.say rfl

theorem Twins.writeField (object : Value) (name : String) {v : Value} (hv : s.engine.Known v) :
    TwinEffects (s'.writeField object name v) (s.writeField object name v) := by
  unfold State.writeField
  rw [h.heap]
  split
  · exact h.say rfl
  · exact ⟨rfl, h.withHeap (h.settled.heap.setField _ name hv)⟩

theorem Twins.shape (receiver : Value) (args : List Value) (other : Option (Value × List Value)) :
    TwinEffects (s'.shape receiver args other) (s.shape receiver args other) := by
  have hcall : ∀ receiver args,
      Shape.ofCall s'.registry receiver args = Shape.ofCall s.registry receiver args := by
    intro receiver args
    unfold Shape.ofCall
    rw [h.registry.ofValue]
  exact h.say (by simp only [hcall])

theorem Twins.resolveClass (c : ClassRef) (name : String) (args : List ClassRef)
    (label : Option String) :
    TwinEffects (s'.resolveClass c name args label) (s.resolveClass c name args label) := by
  have hstate := h.perform (.resolveClass c name args) ⟨trivial, nofun⟩
  have hanswer : (s'.engine.resolveClass c name args).1 = (s.engine.resolveClass c name args).1 :=
    h.engine.resolveClass args
  -- the target is the same and so is what is kept of it
  unfold State.resolveClass
  dsimp only [Engine.perform] at hstate
  generalize s'.engine.resolveClass c name args = out', s.engine.resolveClass c name args = out
    at hstate hanswer
  obtain ⟨r', g'⟩ := out'
  obtain ⟨r, g⟩ := out
  obtain rfl : r' = r := hanswer
  cases r' with
  | error e => exact ⟨rfl, hstate⟩
  | ok t => exact ⟨by rw [h.hierarchy], hstate.keep label t none none⟩

theorem Twins.resolve (access : Access) (receiver : Value) (name : String) {args : List Value}
    (hargs : ∀ v ∈ args, s.engine.Known v) (label : Option String) :
    TwinEffects (s'.resolve access receiver name args label)
      (s.resolve access receiver name args label) := by
  have hstate := h.perform (.resolve access receiver name args) ⟨hargs, nofun⟩
  have htarget : (s'.engine.resolve access receiver name args).1.map (·.target) =
      (s.engine.resolve access receiver name args).1.map (·.target) := h.engine.resolve
  unfold State.resolve
  dsimp only [Engine.perform] at hstate
  generalize s'.engine.resolve access receiver name args = out',
    s.engine.resolve access receiver name args = out at hstate htarget
  obtain ⟨r', g'⟩ := out'
  obtain ⟨r, g⟩ := out
  -- they agree on the target, or on the error
  cases r' with
  | error e' =>
    cases r with
    | error e => cases htarget; exact ⟨rfl, hstate⟩
    | ok found => cases htarget
  | ok found' =>
    cases r with
    | error e => cases htarget
    | ok found =>
      have htarget : found'.target = found.target := Except.ok.inj htarget
      refine ⟨?_, ?_⟩
      · show Observation.found (.ok (.ofTarget _ found'.target)) = .found (.ok _)
        rw [htarget]
        exact congrArg (fun h => Observation.found (.ok (.ofTarget h found.target)))
          hstate.hierarchy
      · dsimp only
        rw [htarget]
        exact hstate.keep label _ _ _

theorem Twins.memo (clear : Bool) : TwinEffects (s'.memo clear) (s.memo clear) := by
  cases clear with
  | false => exact ⟨rfl, h⟩
  | true => exact ⟨rfl, h.perform .clearMemo ⟨trivial, nofun⟩⟩

theorem Twins.guard (label : String) : TwinEffects (s'.guard label) (s.guard label) := by
  unfold State.guard
  rcases h.kept_cases label with ⟨hk', hk⟩ | ⟨k', k, hk', hk, -⟩
  · rw [hk', hk]
    exact h.say rfl
  · rw [hk', hk]
    exact h.monitor rfl rfl

theorem Twins.sameTarget (a b : String) : TwinEffects (s'.sameTarget a b) (s.sameTarget a b) := by
  -- each label has a target in both or in neither, which makes three cases
  unfold State.sameTarget
  rcases h.kept_cases a with ⟨ha', ha⟩ | ⟨x', x, ha', ha, hx⟩
  · rw [ha', ha]
    exact h.say rfl
  · rcases h.kept_cases b with ⟨hb', hb⟩ | ⟨y', y, hb', hb, hy⟩
    · rw [ha', ha, hb', hb]
      exact h.say rfl
    · rw [ha', ha, hb', hb]
      exact h.say (by rw [hx, hy])

theorem Twins.openSite (id : Nat) (access : Access) (name : String) :
    TwinEffects (s'.openSite id access name) (s.openSite id access name) := by
  have hstate := h.perform (.openSite id access name) ⟨trivial, nofun⟩
  have hanswer : (s'.engine.openSite id access name).1.map (fun _ => ()) =
      (s.engine.openSite id access name).1.map fun _ => () := h.engine.openSite
  unfold State.openSite
  dsimp only [Engine.perform] at hstate
  generalize s'.engine.openSite id access name = out', s.engine.openSite id access name = out
    at hstate hanswer
  obtain ⟨r', g'⟩ := out'
  obtain ⟨r, g⟩ := out
  -- either both have the site now or both refuse it
  cases r' <;> cases r <;> cases hanswer
  · exact ⟨rfl, hstate⟩
  · exact ⟨rfl, hstate⟩

theorem Twins.attachSite (label : String) (id : Nat) (access : Access) (name : String)
    (capacity : Nat) : TwinEffects (s'.attachSite label id access name capacity)
      (s.attachSite label id access name capacity) := by
  have hstate := h.perform (.attach id access name capacity) ⟨trivial, nofun⟩
  have hkey := h.engine.attach (.create id access name capacity) (.create id access name capacity)
  refine ⟨rfl, { hstate with labels := ?_, settled := { hstate.settled with } }⟩
  exact congrArg₂ (fun labels key => labels.insert label key) h.labels hkey

theorem Twins.resetSite (key : SiteKey) : TwinEffects (s'.resetSite key) (s.resetSite key) :=
  (h.perform (.resetSite key) ⟨trivial, nofun⟩).onSite (fun _ => rfl) fun _ => rfl

theorem Twins.inspect (subject : Subject) :
    TwinEffects (s'.inspect subject) (s.inspect subject) := by
  cases subject with
  -- counters are monitored, and what a target or an object is, is said alike
  | registry | resolver | engine => exact h.monitor rfl rfl
  | site t => exact h.onSiteOf t (fun _ => rfl) fun _ => rfl
  | target label =>
    unfold State.inspect
    dsimp only
    rcases h.kept_cases label with ⟨hk', hk⟩ | ⟨k', k, hk', hk, -⟩
    · rw [hk', hk]
      exact h.say rfl
    · rw [hk', hk]
      exact h.monitor rfl rfl
  | object t =>
    unfold State.inspect
    dsimp only
    rw [h.value]
    split
    · exact h.say rfl
    · exact h.monitor rfl rfl

end

end State

end LateBinding.Session
