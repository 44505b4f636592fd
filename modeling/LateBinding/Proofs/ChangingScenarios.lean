import LateBinding.Proofs.SoleShapes
import LateBinding.Proofs.SteadyScenarios

/-!
# Scenarios in which entries or sites do not last

The storm replaces the method of its class again and again, which makes the entry of its site stale.
The next call finds the new method and keeps it, so the site is resolved once for each version of
the method that was called. The cold calls go through a fresh site for each object, which resolves
once, and only the memo makes up for that.
-/

namespace LateBinding.Scenario

open Engine (SoleSite build)

variable {settings : Settings} {w w' : World} {key : SiteKey} {n k : Nat} {access : Access}
variable {name : String} {shape : Shape} {receiver v : Value} {args : List Value} {heap : Heap}
variable {t : Target Action} {s : Site Action}

/-! ## Calls with one shape -/

/-- A call of a site that was called with this shape only has the value that looking up tells, and
asks the resolver unless the site serves the shape. -/
theorem call_of_soleSite (receiver : Value) (args : List Value)
    (h : SoleSite settings key access name shape s w.engine)
    (hargs : ∀ v ∈ args, ∃ n, v = .int n)
    (hshape : .ofCall w.engine.registry receiver args = shape)
    (hlookup : w.engine.registry.lookup access (.ofValue w.engine.registry receiver) name
      (args.map Value.classOf) = .ok t)
    (hcarry : carryOut t receiver args w.heap = .ok (v, heap)) :
    ∃ w' s', w.call key receiver args = .ok (v, w') ∧
      w'.engine = w.engine.perform (.dispatch key receiver args) ∧
      SoleSite settings key access name shape s' w'.engine ∧
      s'.resolutions = s.resolutions + (if s.serves w.engine.registry shape then 0 else 1) ∧
      s'.serves w'.engine.registry shape = true := by
  obtain ⟨hanswer, s', hsite, hresolutions, hserves⟩ := h.call (known_of_ints hargs) hshape hlookup
  exact ⟨_, s', World.call_of_answer hanswer hcarry, rfl, hsite, hresolutions, hserves⟩

/-! ## The storm -/

theorem newName_config : Hierarchy.builtin.byName? "Config" = none := by decide

/-- The engine as it is set up for replacing a method. -/
def stormEngine (settings : Settings) : Engine Action :=
  oneMethod settings "Config" "generation" (.int 0)

theorem build_invalidationStorm : Fixture.build .invalidationStorm (.start (build settings)) =
    .ok (.storm ⟨8⟩ soleObject 0, ⟨stormEngine settings, (Heap.empty.create ⟨8⟩ []).2⟩) := by
  simp only [Fixture.build, define_start newName_config, openSite_oneMethod newName_config,
    create_start, bind, Except.bind]
  rfl

theorem ready_stormEngine : Ready settings .method "generation" (stormEngine settings) :=
  ready_oneMethod newName_config

/-- The change that a new generation comes with. -/
def newGeneration (k : Nat) : Change Action :=
  .addMethod (method "generation" [] (.constant (.int (Int64.ofNat k))))

/-- The method of the class is the one of a generation. -/
def OfGeneration (k : Nat) (r : Registry Action) : Prop :=
  ∃ m, r.SoleMethod ⟨8⟩ m ∧ m.signature = ⟨"generation", [], false⟩ ∧
    m.code = .body (.constant (.int (Int64.ofNat k))) ∧ m.origin.isNative

theorem ofGeneration_stormEngine : OfGeneration 0 (stormEngine settings).registry :=
  ⟨_, soleMethod_oneMethod newName_config, rfl, rfl, rfl⟩

theorem OfGeneration.lookup {r : Registry Action} (h : OfGeneration k r) :
    ∃ m, r.lookup .method (.plain ⟨8⟩) "generation" [] = .ok (.method m) ∧
      m.signature = ⟨"generation", [], false⟩ ∧
      m.code = .body (.constant (.int (Int64.ofNat k))) := by
  obtain ⟨m, hm, hsignature, hcode, -⟩ := h
  have hlookup := hm.lookup [] (by simp [hsignature, Signature.acceptsExactly])
  rw [hsignature] at hlookup
  exact ⟨m, hlookup, hsignature, hcode⟩

theorem OfGeneration.change {r r' : Registry Action} (h : OfGeneration n r)
    (hok : r.changeClass ⟨8⟩ (newGeneration k) = .ok r') : OfGeneration k r' := by
  obtain ⟨m, hm, hsignature, -, hnative⟩ := h
  obtain ⟨serial, hm'⟩ := Registry.soleMethod_changeClass hm hnative hsignature.symm hok
  exact ⟨_, hm', rfl, rfl, rfl⟩

/-- A world in generation `k`, whose site was resolved so many times and serves or does not serve
calls from its entry. -/
structure Storming (settings : Settings) (k resolutions : Nat) (serves : Bool) (w : World) :
    Prop where
  keys : w.engine.sites.keys = [.numbered 1]
  receiver : Receiver.ofValue w.engine.registry soleObject = .plain ⟨8⟩
  generation : OfGeneration k w.engine.registry
  site : ∃ s, SoleSite settings (.numbered 1) .method "generation" (soleShape []) s w.engine ∧
    s.resolutions = resolutions ∧ s.serves w.engine.registry (soleShape []) = serves

variable {resolutions : Nat} {serves : Bool}

theorem storming_stormEngine (hvalid : settings.fault? = none) :
    Storming settings 0 0 false ⟨stormEngine settings, heap⟩ where
  keys := ready_stormEngine.keys
  receiver := ready_stormEngine.plain _
  generation := ofGeneration_stormEngine
  site := ⟨_, Engine.soleSite_create hvalid ready_stormEngine.run ready_stormEngine.site, rfl, rfl⟩

/-- With a new generation, the site has to be resolved again. -/
theorem Storming.change (h : Storming settings n resolutions serves w) (k : Nat) :
    ∃ w', w.change ⟨8⟩ (newGeneration k) = .ok w' ∧
      Storming settings k resolutions false w' := by
  obtain ⟨m, hm, -⟩ := h.generation
  obtain ⟨s, hs, hresolutions, -⟩ := h.site
  obtain ⟨r', hr'⟩ := Registry.changeClass_of_declares hm.declares (newGeneration k)
  obtain ⟨hok, hengine⟩ := changeClass_of_ok hr'
  have hchange := World.change_of_ok hok
  obtain ⟨rest, hchain⟩ := hm.chain
  -- the class is on the chain of its own instances, so the entry is stale
  obtain ⟨hsite, hstale⟩ := hs.changeClass hok
    (show ⟨8⟩ ∈ w.engine.registry.hierarchy.chain ⟨8⟩ from hchain ▸ List.mem_cons_self)
  rw [hengine] at hchange hsite hstale
  have hrestamped := Registry.membersRestamped_changeClass hs.launched.reachable.sound hr'
  exact ⟨{ w with engine := w.engine.withRegistry r' }, hchange, h.keys,
    hrestamped.restamped.ofValue.trans h.receiver, h.generation.change hr', s, hsite,
    hresolutions, hstale⟩

/-- A call tells the generation. -/
theorem Storming.call (h : Storming settings k resolutions serves w) :
    ∃ w', w.call (.numbered 1) soleObject [] = .ok (.int (Int64.ofNat k), w') ∧
      Storming settings k (resolutions + if serves then 0 else 1) true w' := by
  obtain ⟨s, hs, hresolutions, hserves⟩ := h.site
  obtain ⟨m, hlookup, hsignature, hcode⟩ := h.generation.lookup
  obtain ⟨w', s', hcall, hengine, hsite, hresolved, hserves'⟩ := call_of_soleSite soleObject
    [] hs (fun _ hv => absurd hv List.not_mem_nil)
    (ofCall_soleObject h.receiver) (by rw [h.receiver]; exact hlookup)
    (carryOut_constant (by rw [hsignature]) (by rw [hsignature]) hcode)
  -- the call brings cells into being, and leaves members and chain alone
  obtain ⟨cs, hcs⟩ := Engine.cells_perform_dispatch w.engine (.numbered 1) soleObject []
  obtain ⟨m', hm', hrest⟩ := h.generation
  refine ⟨w', hcall, ?_, ?_, ⟨m', ?_, hrest⟩, s', hsite, ?_, hserves'⟩
  · rw [hengine, Engine.keys_perform_dispatch, h.keys]
  · rw [hengine, hcs, Registry.ofValue_materializeAll, h.receiver]
  · rw [hengine, hcs]
    exact hm'.materializeAll cs
  · rw [hresolved, hresolutions, hserves]

/-- The storm after `n` calls, in the generation that was due last. -/
structure StormAt (settings : Settings) (n : Nat) (f : Fixture) (w : World) : Prop where
  fixture : f = .storm ⟨8⟩ soleObject ((n - 1) / 500)
  storming : Storming settings ((n - 1) / 500) (if n = 0 then 0 else 1 + (n - 1) / 500)
    (decide (0 < n)) w

theorem keeps_storm : Keeps n (StormAt settings) (invalidationStorm.number settings) := by
  rintro n _ w - ⟨rfl, h⟩
  -- in a round of the storm the members change before the call, in all others the site serves it
  by_cases hdue : 0 < n ∧ n % stormPeriod = 0
  · have hgeneration : (n - 1) / 500 + 1 = n / 500 := by
      rw [stormPeriod] at hdue
      omega
    obtain ⟨w₁, hchange, h₁⟩ := h.change (n / 500)
    rw [newGeneration] at hchange
    obtain ⟨w₂, hcall, h₂⟩ := h₁.call
    refine ⟨.storm ⟨8⟩ soleObject (n / 500), w₂, ?_, rfl, ?_⟩
    · simp only [Fixture.step, Fixture.stepStorm, if_pos hdue, hgeneration, hchange, hcall, bind,
        Except.bind, expect_int]
      rfl
    · rw [if_neg (by omega), ← hgeneration] at h₂
      simpa [hgeneration, Nat.add_assoc] using h₂
  · obtain ⟨w₁, hcall, h₁⟩ := h.call
    have hgeneration : (n - 1) / 500 = n / 500 := by
      rw [stormPeriod] at hdue
      omega
    refine ⟨.storm ⟨8⟩ soleObject (n / 500), w₁, ?_, rfl, ?_⟩
    · rw [hgeneration] at hcall
      simp only [Fixture.step, Fixture.stepStorm, if_neg hdue, hgeneration, hcall, bind,
        Except.bind, expect_int]
      rfl
    -- the first call resolves, and so does each one after a change
    · have hresolutions : ((if n = 0 then 0 else 1 + (n - 1) / 500) +
          if decide (0 < n) then 0 else 1) = 1 + n / 500 := by
        rw [hgeneration]
        by_cases hn : n = 0
        · subst hn
          rfl
        · simp [hn, Nat.pos_of_ne_zero hn]
      rw [hresolutions, hgeneration] at h₁
      simpa using h₁

theorem verifyStorm_ok (hresolutions : s.resolutions = if n = 0 then 0 else 1 + (n - 1) / 500) :
    Fixture.verifyStorm s ((n - 1) / 500) n = .ok () := by
  have hfew : s.resolutions ≤ min ((n - 1) / 500 + 1) n := by
    rw [hresolutions]
    split <;> omega
  simp [Fixture.verifyStorm, Fixture.ensure, hfew]

theorem succeeds_invalidationStorm (hvalid : settings.fault? = none) (hn : n < 2 ^ 62) :
    ∃ o, invalidationStorm.Succeeds settings n o := by
  refine succeeds_of_keeps hvalid hn build_invalidationStorm ⟨rfl, storming_stormEngine hvalid⟩
    keeps_storm fun {f w} h => ?_
  obtain ⟨rfl, h⟩ := h
  obtain ⟨s, hs, hresolutions, -⟩ := h.site
  refine ⟨?_, fun o hsites _ => ?_⟩
  · simp only [Fixture.verify, Fixture.site, World.site?, hs.site]
    exact verifyStorm_ok hresolutions
  · rw [Resolved, hsites, Engine.reports, numberedSites_of_one h.keys hs.site, ← hresolutions]
    rfl

/-! ## Fresh objects -/

theorem newName_request : Hierarchy.builtin.byName? "Request" = none := by decide

/-- The method of the class. -/
def handle : Method Action := (method "handle" [.ofClass .int] .doubleArgument).install .declared 5

/-- The engine as it is set up for calls on fresh objects. -/
def coldEngine (settings : Settings) : Engine Action :=
  oneClass settings "Request" ["id"] [method "handle" [.ofClass .int] .doubleArgument]

theorem build_coldCall : Fixture.build .coldCall (.start (build settings)) =
    .ok (.cold ⟨8⟩, ⟨coldEngine settings, .empty⟩) := by
  simp only [Fixture.build, define_start newName_request, bind, Except.bind]
  rfl

theorem staged_coldEngine : Staged settings (coldEngine settings) :=
  staged_oneClass newName_request

theorem lookup_coldEngine : (coldEngine settings).registry.lookup .method (.plain ⟨8⟩) "handle"
    [.int] = .ok (.method handle) :=
  (soleMethod_oneClass newName_request _).lookup [.int] rfl

theorem carryOut_handle {k : Nat} (hk : k < 2 ^ 62) :
    carryOut (.method handle) receiver [.int (Int64.ofNat k)] heap =
      .ok (.int (Int64.ofNat k * 2), heap) := by
  have hvalue : Action.doubleArgument.value heap receiver "handle" [.int (Int64.ofNat k)] =
      .ok (.int (Int64.ofNat k * 2)) := by
    show (inRange .multiply ((Int64.ofNat k).toInt * 2)).map Value.int = _
    rw [inRange_double hk]
    rfl
  have hconvert : (ParamKind.ofClass .int).convert (.int (Int64.ofNat k)) =
      .int (Int64.ofNat k) := rfl
  simp [handle, method, MethodDecl.install, carryOut, Target.enter, Target.request,
    Signature.arguments, Request.enter, hconvert, hvalue]

/-- Under what the answer for all calls is remembered. -/
def coldKey : MemoKey := ⟨⟨8⟩, "handle", .ofArgs [.int 0]⟩

theorem asked_coldEngine : (coldEngine settings).resolver.Asked coldKey 0 := by
  rw [staged_coldEngine.resolver]
  refine ⟨rfl, ?_, fun _ => rfl⟩
  rw [Nat.min_zero, ite_self]
  rfl

/-- A world with these sites, in which so many objects were called. -/
structure Cold (settings : Settings) (keys : List SiteKey) (n : Nat) (w : World) : Prop where
  run : Engine.Run Engine.Orderly (build settings) w.engine
  keys : w.engine.sites.keys = keys
  capacity : w.engine.settings.cacheCapacity = settings.cacheCapacity
  cells : ∃ cs, w.engine.registry = (coldEngine settings).registry.materializeAll cs
  memoize : w.engine.resolver.memoize = settings.memoizeResolutions
  asked : w.engine.resolver.Asked coldKey n

theorem cold_coldEngine : Cold settings [] 0 ⟨coldEngine settings, heap⟩ where
  run := staged_coldEngine.run
  keys := congrArg Table.keys (sites_oneClass newName_request)
  capacity := staged_coldEngine.room
  cells := ⟨[], rfl⟩
  memoize := congrArg Resolver.memoize staged_coldEngine.resolver
  asked := asked_coldEngine

section

variable {keys : List SiteKey} {o : ObjectRef} {serves : Bool}

/-- No object has members of its own. -/
theorem Cold.ofValue (h : Cold settings keys n w) (ho : o.cls = ⟨8⟩) :
    Receiver.ofValue w.engine.registry (.object o) = .plain ⟨8⟩ := by
  obtain ⟨cs, hcs⟩ := h.cells
  rw [hcs, Registry.ofValue_materializeAll, staged_coldEngine.plain, ho]

theorem Cold.lookup (h : Cold settings keys n w) :
    w.engine.registry.lookup .method (.plain ⟨8⟩) "handle" [.int] = .ok (.method handle) := by
  obtain ⟨cs, hcs⟩ := h.cells
  rw [hcs, Registry.lookup_materializeAll, lookup_coldEngine]

/-- A world that calls objects of the class through a site, which serves or does not serve them. -/
def Calling (settings : Settings) (key : SiteKey) (serves : Bool) (n : Nat) (w : World) : Prop :=
  Cold settings [key] n w ∧
    ∃ s, SoleSite settings key .method "handle" (soleShape [.int 0]) s w.engine ∧
      s.serves w.engine.registry (soleShape [.int 0]) = serves

/-- A fresh site serves nothing. -/
theorem Cold.attach (hvalid : settings.fault? = none) (h : Cold settings [] n w) (id : Nat)
    (heap : Heap) :
    ∃ key g, w.engine.attach (.create id .method "handle" w.engine.settings.cacheCapacity) =
      (key, g) ∧ Calling settings key false n ⟨g, heap⟩ := by
  -- the run goes on by an orderly operation, and nothing was asked on the way
  have hrun : Engine.Run Engine.Orderly (build settings) (w.engine.perform
      (.attach id .method "handle" w.engine.settings.cacheCapacity)) :=
    h.run.tail ⟨.attach id .method "handle" w.engine.settings.cacheCapacity, ⟨trivial, nofun⟩, rfl⟩
  refine ⟨_, _, rfl, ⟨hrun, ?_, h.capacity, h.cells, h.memoize, h.asked⟩,
    .create id .method "handle" settings.cacheCapacity,
    Engine.soleSite_create hvalid hrun ?_, rfl⟩
  · show (w.engine.sites.insert _ _).keys = _
    rw [Table.keys_insert, h.keys]
    rfl
  · show (w.engine.sites.insert _ _).get? _ = _
    rw [Table.get?_insert, if_pos rfl, h.capacity]

/-- A call has twice its argument as its value. The resolver is asked unless the site serves the
call. -/
theorem Calling.call (h : Calling settings key serves n w) (o : ObjectRef) {k : Nat}
    (hk : k < 2 ^ 62) (ho : o.cls = ⟨8⟩) :
    ∃ w', w.call key (.object o) [.int (Int64.ofNat k)] = .ok (.int (Int64.ofNat k * 2), w') ∧
      Calling settings key true (if serves then n else n + 1) w' := by
  obtain ⟨h, s, hs, hserves⟩ := h
  have hreceiver := h.ofValue ho
  have hshape : Shape.ofCall w.engine.registry (.object o) [.int (Int64.ofNat k)] =
      soleShape [.int 0] := by
    rw [Shape.ofCall, hreceiver]
    rfl
  obtain ⟨w', s', hcall, hengine, hsite, -, hserves'⟩ := call_of_soleSite (.object o)
    [.int (Int64.ofNat k)] hs (by simp) hshape
    (by rw [hreceiver]; exact h.lookup) (carryOut_handle hk)
  -- of what the call does, only cells come into being in the registry
  obtain ⟨ds, hds⟩ :=
    Engine.cells_perform_dispatch w.engine key (.object o) [.int (Int64.ofNat k)]
  obtain ⟨cs, hcs⟩ := h.cells
  -- the question is the one the resolver was asked all the time, if it is asked at all
  obtain ⟨hmemoize, hasked⟩ := hs.asked (k := coldKey) hshape
    (by rw [hreceiver]; exact h.lookup) h.asked
  refine ⟨w', hcall, ⟨hsite.run, ?_, ?_, ⟨cs ++ ds, ?_⟩, ?_, ?_⟩, s', hsite, hserves'⟩
  · rw [hengine, Engine.keys_perform_dispatch, h.keys]
  · rw [hengine, Engine.perform, Engine.dispatch_of_site hs.site]
    exact h.capacity
  · rw [hengine, hds, hcs]
    exact (List.foldl_append ..).symm
  · rw [hengine, hmemoize, h.memoize]
  · rw [hengine, ← hserves]
    exact hasked

/-- Without its site, the world is as before. -/
theorem Cold.drop (h : Cold settings [key] n w) :
    Cold settings [] n { w with engine := w.engine.drop key } := by
  refine ⟨h.run.tail ⟨.drop key, ⟨trivial, nofun⟩, rfl⟩, ?_, h.capacity, h.cells, h.memoize,
    h.asked⟩
  have hkeys : (w.engine.sites.erase key).keys = w.engine.sites.keys.filter (· ≠ key) := by
    rw [Table.keys, Table.keys, List.filter_map]
    rfl
  rw [show (w.engine.drop key).sites = w.engine.sites.erase key from rfl, hkeys, h.keys]
  simp

/-- The fixture after `n` calls. -/
structure ColdAt (settings : Settings) (n : Nat) (f : Fixture) (w : World) : Prop where
  fixture : f = .cold ⟨8⟩
  cold : Cold settings [] n w

theorem keeps_cold (hvalid : settings.fault? = none) (hn : n < 2 ^ 62) :
    Keeps n (ColdAt settings) (coldCall.number settings) := by
  rintro i _ w hi ⟨rfl, h⟩
  have hsmall : i < 2 ^ 62 := hi.trans hn
  obtain ⟨key, g, hattach, h₁⟩ := h.attach hvalid i (w.heap.create ⟨8⟩ []).2
  obtain ⟨w₂, hfirst, h₂⟩ := h₁.call (w.heap.create ⟨8⟩ []).1 hsmall rfl
  obtain ⟨w₃, hsecond, h₃⟩ := h₂.call (w.heap.create ⟨8⟩ []).1 hsmall rfl
  refine ⟨.cold ⟨8⟩, { w₃ with engine := w₃.engine.drop key }, ?_, rfl, h₃.1.drop⟩
  simp only [Fixture.step, Fixture.stepCold, World.create, hattach, hfirst, hsecond, bind,
    Except.bind, expect_int]
  rw [number, Int64.ofNat_mul, Int64.mul_comm]
  rfl

theorem succeeds_coldCall (hvalid : settings.fault? = none) (hn : n < 2 ^ 62) :
    ∃ o, coldCall.Succeeds settings n o := by
  refine succeeds_of_keeps hvalid hn build_coldCall ⟨rfl, cold_coldEngine⟩
    (keeps_cold hvalid hn)
    fun {f w} h => ?_
  obtain ⟨rfl, h⟩ := h
  -- sites of this scenario are never numbered, so none is reported
  have hnone : w.engine.numberedSites = [] := by
    have hsites := Engine.numberedSites_of_keys [] h.keys List.Pairwise.nil
    simpa using hsites
  refine ⟨?_, fun o hsites hmetrics => ⟨?_, ?_, ?_⟩⟩
  · simp [Fixture.verify, Engine.siteCount, hnone, Fixture.ensure]
  · rw [hsites, Engine.reports, hnone]
    rfl
  · rw [hmetrics]
    exact h.asked.invocations
  · rw [hmetrics, ← h.memoize]
    exact h.asked.fullResolutions

end

end LateBinding.Scenario
