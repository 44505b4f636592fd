import LateBinding.Proofs.KnownValues
import LateBinding.Proofs.Staging

/-!
# Scenarios that change no members

The scenarios with one receiver class, with a hook for missing methods, with receiver classes in
rotation and with properties set classes and sites up and then call the sites only. So all their
calls are answered as at the start, and the sites are as the shapes of the calls make them.
-/

namespace LateBinding.Scenario

open Engine (Opened Serves build)

variable {settings : Settings} {g₀ : Engine Action} {w w' : World} {key : SiteKey} {id n : Nat}
variable {access : Access} {name : String} {shapes : List Shape} {receiver v : Value}
variable {args : List Value} {heap : Heap} {t : Target Action} {s : Site Action}

/-- Integers and no arguments at all are known to every engine. -/
theorem known_of_ints {g : Engine Action} (hargs : ∀ v ∈ args, ∃ n, v = .int n) :
    ∀ v ∈ args, g.Known v := by
  rintro v hv o rfl
  obtain ⟨n, hn⟩ := hargs _ hv
  cases hn

/-! ## Calls -/

/-- A call of a world that only serves calls has the value that it would have had at the start, and
adds its shape. -/
theorem call_of_serves (receiver : Value) (hg : Opened settings key id access name g₀)
    (h : Serves g₀ key shapes w.engine) (hargs : ∀ v ∈ args, ∃ n, v = .int n)
    (hlookup : g₀.registry.lookup access (.ofValue g₀.registry receiver) name
      (args.map Value.classOf) = .ok t)
    (hcarry : carryOut t receiver args w.heap = .ok (v, heap)) :
    ∃ w', w.call key receiver args = .ok (v, w') ∧ w'.heap = heap ∧
      Serves g₀ key (.ofCall g₀.registry receiver args :: shapes) w'.engine := by
  obtain ⟨hanswer, hserves⟩ := h.call hg (known_of_ints hargs) hlookup
  exact ⟨_, World.call_of_answer hanswer hcarry, rfl, hserves⟩

/-- The calls of one site do not concern another one. -/
theorem aside_of_call {key' : SiteKey} (hg : Opened settings key id access name g₀)
    (h : Serves g₀ key shapes w.engine) (hargs : ∀ v ∈ args, ∃ n, v = .int n) (hne : key' ≠ key)
    (hcall : w.call key' receiver args = .ok (v, w')) : Serves g₀ key shapes w'.engine := by
  rw [World.engine_of_call hcall]
  exact h.aside hg (known_of_ints hargs) hne

/-- A world with one site, which was only called, with the shapes of a sequence. -/
structure OneSite (g₀ : Engine Action) (sequence : Nat → Shape) (n : Nat) (w : World) : Prop where
  keys : g₀.sites.keys = [.numbered 1]
  serves : Serves g₀ (.numbered 1) (Shape.sequence sequence n) w.engine

section

variable {sequence : Nat → Shape}

theorem oneSite_start (hkeys : g₀.sites.keys = [.numbered 1]) : OneSite g₀ sequence 0 ⟨g₀, heap⟩ :=
  ⟨hkeys, Engine.serves_start⟩

theorem OneSite.call (h : OneSite g₀ sequence n w) (receiver : Value) (args : List Value)
    (hg : Opened settings (.numbered 1) id access name g₀) (hargs : ∀ v ∈ args, ∃ n, v = .int n)
    (hshape : .ofCall g₀.registry receiver args = sequence n)
    (hlookup : g₀.registry.lookup access (.ofValue g₀.registry receiver) name
      (args.map Value.classOf) = .ok t)
    (hcarry : carryOut t receiver args w.heap = .ok (v, heap)) :
    ∃ w', w.call (.numbered 1) receiver args = .ok (v, w') ∧ OneSite g₀ sequence (n + 1) w' := by
  obtain ⟨w', hcall, -, hserves⟩ := call_of_serves receiver hg h.serves hargs hlookup hcarry
  refine ⟨w', hcall, h.keys, ?_⟩
  rw [Shape.sequence_succ, ← hshape]
  exact hserves

/-- The only site of a world is the one that is reported. -/
theorem numberedSites_of_one {g : Engine Action} (hkeys : g.sites.keys = [.numbered 1])
    (hs : g.sites.get? (.numbered 1) = some s) : g.numberedSites = [s] := by
  have hsites := Engine.numberedSites_of_keys [1] hkeys (List.pairwise_singleton _ _)
  rw [List.map_singleton, hs] at hsites
  exact List.map_injective_iff.mpr (Option.some_injective _) hsites

theorem OneSite.reports (h : OneSite g₀ sequence n w)
    (hs : w.engine.sites.get? (.numbered 1) = some s) :
    w.engine.reports.map (·.resolutions) = [s.resolutions] := by
  rw [Engine.reports, numberedSites_of_one (h.serves.keys.trans h.keys) hs]
  rfl

end

/-- A site that is called with one shape only is resolved once, and freezes if there are calls
enough. -/
theorem single_of_serves {x : Shape} (hg : Opened settings key id access name g₀)
    (h : Serves g₀ key (Shape.sequence (fun _ => x) n) w.engine) :
    ∃ s, w.engine.sites.get? key = some s ∧ s.resolutions = min 1 n ∧
      (w.engine.policy.optimizeThreshold < n → s.phase = .frozen) := by
  -- a constant sequence has one latest shape, and its last new one is the first
  obtain ⟨hlatest, hlast⟩ :=
    Shape.rounds (fun _ => x) n Nat.one_pos (by omega)
  have hroom := (Engine.room_of_valid hg.valid).1
  obtain ⟨s, hs, hresolutions, -, hfrozen⟩ := h.paced hg (by
    rw [hlatest]
    omega)
  refine ⟨s, hs, hresolutions.trans hlatest, fun hcalls => ?_⟩
  have hthreshold : w.engine.policy.optimizeThreshold = settings.optimizeThreshold := by
    rw [h.policy, hg.policy]
    rfl
  rw [hthreshold] at hcalls
  rw [hfrozen, Shape.length_sequence, hlast]
  omega

/-- The same for a fixture that always stays the same. -/
structure OneSiteAt (f₀ : Fixture) (g₀ : Engine Action) (sequence : Nat → Shape) (n : Nat)
    (f : Fixture) (w : World) : Prop where
  fixture : f = f₀
  oneSite : OneSite g₀ sequence n w

theorem verifyHot_ok {p : Policy} (hresolutions : s.resolutions = min 1 n)
    (hfrozen : p.optimizeThreshold < n → s.phase = .frozen) :
    Fixture.verifyHot p s n = .ok () := by
  have hfew : s.resolutions ≤ 1 := hresolutions ▸ Nat.min_le_left _ _
  unfold Fixture.verifyHot
  simp only [Fixture.ensure, hfew, decide_true, if_true, Fixture.ensurePhase]
  split
  · next hcalls =>
    simp only [hfrozen hcalls, decide_true, if_true]
    rfl
  · rfl

/-- A world with one site passes the check for one shape. -/
theorem OneSite.passes {x : Shape} (hg : Opened settings (.numbered 1) id access name g₀)
    (h : OneSite g₀ (fun _ => x) n w) : ∃ s, w.engine.sites.get? (.numbered 1) = some s ∧
      Fixture.verifyHot w.engine.policy s n = .ok () ∧
      w.engine.reports.map (·.resolutions) = [min 1 n] := by
  obtain ⟨s, hs, hresolutions, hfrozen⟩ := single_of_serves hg h.serves
  exact ⟨s, hs, verifyHot_ok hresolutions hfrozen, hresolutions ▸ h.reports hs⟩

/-! ## One receiver class -/

/-- The object that a scenario with one class creates. -/
def soleObject : Value := .object ⟨1, ⟨8⟩⟩

/-- The shape of a call for it. -/
def soleShape (args : List Value) : Shape := ⟨.plain ⟨8⟩, .ofArgs args⟩

theorem ofCall_soleObject {r : Registry Action}
    (hreceiver : Receiver.ofValue r soleObject = .plain ⟨8⟩) :
    Shape.ofCall r soleObject args = soleShape args := by
  rw [Shape.ofCall, hreceiver, soleShape]

/-- Which integers are passed makes no difference. -/
theorem soleShape_int (k k' : Int64) : soleShape [.int k] = soleShape [.int k'] := rfl

theorem newName_svc : Hierarchy.builtin.byName? "Svc" = none := by decide

/-- The engine as it is set up for one receiver class. -/
def hotEngine (settings : Settings) : Engine Action :=
  oneMethod settings "Svc" "getName" (.str "x")

theorem build_monomorphicHot : Fixture.build .monomorphicHot (.start (build settings)) =
    .ok (.hot soleObject, ⟨hotEngine settings, (Heap.empty.create ⟨8⟩ []).2⟩) := by
  simp only [Fixture.build, define_start newName_svc, openSite_oneMethod newName_svc, create_start,
    bind, Except.bind]
  rfl

theorem ready_hotEngine : Ready settings .method "getName" (hotEngine settings) :=
  ready_oneMethod newName_svc

theorem receiver_hotEngine :
    Receiver.ofValue (hotEngine settings).registry soleObject = .plain ⟨8⟩ :=
  ready_hotEngine.plain _

theorem keeps_hot (hvalid : settings.fault? = none) :
    Keeps n (OneSiteAt (.hot soleObject) (hotEngine settings) fun _ => soleShape [])
      fun _ => 1 := by
  rintro i _ w - ⟨rfl, h⟩
  obtain ⟨w', hcall, h'⟩ := h.call soleObject [] (ready_hotEngine.opened hvalid)
    (fun _ hv => absurd hv List.not_mem_nil) (ofCall_soleObject receiver_hotEngine)
    (by rw [receiver_hotEngine]; exact (soleMethod_oneMethod newName_svc).lookup [] rfl)
    (carryOut_constant rfl rfl rfl)
  refine ⟨.hot soleObject, w', ?_, rfl, h'⟩
  simp only [Fixture.step, hcall]
  rfl

theorem succeeds_monomorphicHot (hvalid : settings.fault? = none) (hn : n < 2 ^ 62) :
    ∃ o, monomorphicHot.Succeeds settings n o := by
  refine succeeds_of_keeps hvalid hn build_monomorphicHot ⟨rfl, oneSite_start ready_hotEngine.keys⟩
    (keeps_hot hvalid) fun {f w} h => ?_
  obtain ⟨rfl, h⟩ := h
  obtain ⟨s, hs, hverify, hreports⟩ := h.passes (ready_hotEngine.opened hvalid)
  refine ⟨?_, fun o hsites _ => ?_⟩
  · simp only [Fixture.verify, Fixture.site, World.site?, hs]
    exact hverify
  · rw [Resolved, hsites, hreports]

/-! ## A hook for missing methods -/

theorem newName_finder : Hierarchy.builtin.byName? "PersonFinder" = none := by decide

/-- The engine with the class that has the hook. -/
def hookedEngine (settings : Settings) : Engine Action :=
  (oneClass settings "PersonFinder" [] []).perform
    (.changeClass ⟨8⟩ (.setMethodMissing (some .findBy)))

/-- The engine as it is set up for calls of a method that is missing. -/
def finderEngine (settings : Settings) : Engine Action :=
  (hookedEngine settings).perform (.openSite 1 .method "findByName")

theorem change_hookedEngine : (World.start (oneClass settings "PersonFinder" [] [])).change ⟨8⟩
    (.setMethodMissing (some .findBy)) = .ok (.start (hookedEngine settings)) :=
  World.change_of_ok
    ((staged_oneClass newName_finder).changeClass (declares_oneClass newName_finder) _).1

theorem staged_hookedEngine : Staged settings (hookedEngine settings) :=
  ((staged_oneClass newName_finder).changeClass (declares_oneClass newName_finder) _).2.1

theorem sites_hookedEngine : (hookedEngine settings).sites = .empty :=
  ((staged_oneClass newName_finder).changeClass (declares_oneClass newName_finder) _).2.2.trans
    (sites_oneClass newName_finder)

theorem openSite_hookedEngine : (World.start (hookedEngine settings)).openSite 1 .method
    "findByName" = .ok (.start (finderEngine settings)) :=
  staged_hookedEngine.openFirst sites_hookedEngine ..

theorem build_dynamicFinder : Fixture.build .dynamicFinder (.start (build settings)) =
    .ok (.finder soleObject, ⟨finderEngine settings, (Heap.empty.create ⟨8⟩ []).2⟩) := by
  simp only [Fixture.build, define_start newName_finder, change_hookedEngine,
    openSite_hookedEngine, create_start, bind, Except.bind]
  rfl

theorem ready_finderEngine : Ready settings .method "findByName" (finderEngine settings) :=
  (staged_hookedEngine.ready sites_hookedEngine ..).1

theorem receiver_finderEngine :
    Receiver.ofValue (finderEngine settings).registry soleObject = .plain ⟨8⟩ :=
  ready_finderEngine.plain _

/-- Only the members of the class are changed. -/
theorem registry_hookedEngine (settings : Settings) : ∃ serial,
    (hookedEngine settings).registry.hierarchy =
        (oneClass settings "PersonFinder" [] []).registry.hierarchy ∧
      ∀ b, (hookedEngine settings).registry.members b =
        if b = ⟨8⟩ then ((oneClass settings "PersonFinder" [] []).registry.members ⟨8⟩).apply
          (.setMethodMissing (some .findBy)) serial
        else (oneClass settings "PersonFinder" [] []).registry.members b := by
  have hc : (oneClass settings "PersonFinder" [] []).registry.hierarchy.Declares ⟨8⟩ :=
    declares_oneClass newName_finder
  obtain ⟨r, hr⟩ := Registry.changeClass_of_declares hc (.setMethodMissing (some .findBy))
  have hregistry : (hookedEngine settings).registry = r := by
    rw [hookedEngine, (changeClass_of_ok hr).2]
    rfl
  obtain ⟨hhierarchy, hmembers⟩ := Registry.members_changeClass hr
  rw [hregistry]
  exact ⟨_, hhierarchy, hmembers⟩

/-- The hook is found, as no class has a method of the name. -/
theorem lookup_finderEngine (settings : Settings) : ∃ serial,
    (finderEngine settings).registry.lookup .method (.plain ⟨8⟩) "findByName" [.int] =
      .ok (.methodMissing "findByName" ⟨.findBy, serial⟩) := by
  -- nobody knew the name before the hook was set, and a hook adds no method
  have hold : (oneClass settings "PersonFinder" [] []).registry.Unknown ⟨8⟩ "findByName" :=
    unknown_oneClass newName_finder (fun _ hd => absurd hd List.not_mem_nil) (by decide)
  obtain ⟨serial, hhierarchy, hmembers⟩ := registry_hookedEngine settings
  have hchain : (hookedEngine settings).registry.hierarchy.chain ⟨8⟩ = [⟨8⟩, .object] := by
    rw [hhierarchy, chain_oneClass newName_finder]
  have hdeclares : (hookedEngine settings).registry.hierarchy.Declares ⟨8⟩ := by
    rw [hhierarchy]
    exact declares_oneClass newName_finder
  have hunknown : (hookedEngine settings).registry.Unknown ⟨8⟩ "findByName" := by
    intro b hb m hm
    rw [hhierarchy] at hb
    rw [hmembers] at hm
    by_cases hown : b = ⟨8⟩
    · subst hown
      rw [if_pos rfl] at hm
      exact hold _ hb m (MemberTable.holds_of_setMethodMissing hm)
    · rw [if_neg hown] at hm
      exact hold b hb m hm
  have hhook : ((hookedEngine settings).registry.classPath ⟨8⟩).findSome? (·.methodMissing) =
      some ⟨.findBy, serial⟩ := by
    rw [Registry.classPath, hchain, List.map_cons, List.findSome?_cons, hmembers, if_pos rfl]
    rfl
  rw [finderEngine, (staged_hookedEngine.ready sites_hookedEngine ..).2]
  exact ⟨serial, Registry.lookup_of_unknown staged_hookedEngine.reachable.sound hdeclares hunknown
    hhook _⟩

/-- The hook adds the length of what follows `findBy`. -/
theorem value_findBy {k : Nat} (hk : k < 2 ^ 62) :
    Action.findBy.value heap receiver "findByName" [.int (Int64.ofNat k)] =
      .ok (.int (Int64.ofNat k + 4)) := by
  -- the column is what comes after the prefix, and its length is added
  have hcolumn : afterFindBy? "findByName" = some "Name" := by decide
  have hsize : "Name".utf8ByteSize = 4 := by decide
  -- neither summand is near the bounds of the type
  have hsum : inRange .add ((Int64.ofNat k).toInt + ((4 : Nat) : Int)) =
      .ok (Int64.ofNat k + 4) := by
    rw [Int64.toInt_ofNat_of_lt (by omega), ← Int.natCast_add, inRange_of_lt (by omega),
      Int64.ofNat_add]
    rfl
  simp only [Action.value, hcolumn, hsize]
  show (inRange .add ((Int64.ofNat k).toInt + ((4 : Nat) : Int))).map Value.int = _
  rw [hsum]
  rfl

theorem carryOut_findBy {k : Nat} (hk : k < 2 ^ 62) (serial : Nat) :
    carryOut (.methodMissing "findByName" ⟨.findBy, serial⟩) receiver [.int (Int64.ofNat k)] heap =
      .ok (.int (Int64.ofNat k + 4), heap) := by
  simp [carryOut, Target.enter, Target.request, Request.enter, value_findBy hk]

theorem keeps_finder (hvalid : settings.fault? = none) :
    Keeps n (OneSiteAt (.finder soleObject) (finderEngine settings) fun _ => soleShape [.int 0])
      (dynamicFinder.number settings) := by
  -- the invariant has the receiver and the shape, so the call is the next one of the sequence
  rintro i _ w - ⟨rfl, h⟩
  obtain ⟨serial, hlookup⟩ := lookup_finderEngine settings
  obtain ⟨w', hcall, h'⟩ := h.call soleObject [.int (Int64.ofNat (i % 1000))]
    (ready_finderEngine.opened hvalid) (by simp)
    ((ofCall_soleObject receiver_finderEngine).trans (soleShape_int _ _))
    (by rw [receiver_finderEngine]; exact hlookup)
    (carryOut_findBy (k := i % 1000) (by omega) serial)
  refine ⟨.finder soleObject, w', ?_, rfl, h'⟩
  simp only [Fixture.step, hcall]
  simp only [bind, Except.bind, expect_int]
  rfl

theorem succeeds_dynamicFinder (hvalid : settings.fault? = none) (hn : n < 2 ^ 62) :
    ∃ o, dynamicFinder.Succeeds settings n o := by
  refine succeeds_of_keeps hvalid hn build_dynamicFinder
    ⟨rfl, oneSite_start ready_finderEngine.keys⟩ (keeps_finder hvalid) fun {f w} h => ?_
  obtain ⟨rfl, h⟩ := h
  obtain ⟨s, hs, hverify, hreports⟩ := h.passes (ready_finderEngine.opened hvalid)
  refine ⟨?_, fun o hsites _ => ?_⟩
  · simp only [Fixture.verify, Fixture.site, World.site?, hs]
    exact hverify
  · rw [Resolved, hsites, hreports]

/-! ## Properties -/

theorem newName_counter : Hierarchy.builtin.byName? "Counter" = none := by decide

/-- The engine with the site that reads. -/
def readingEngine (settings : Settings) : Engine Action :=
  (oneClass settings "Counter" ["count"] [method "getDoubled" [] .doubleCount]).perform
    (.openSite 1 .read "doubled")

/-- The engine as it is set up for reading and writing properties. -/
def propertyEngine (settings : Settings) : Engine Action :=
  (readingEngine settings).perform (.openSite 2 .write "count")

theorem ready_readingEngine : Ready settings .read "doubled" (readingEngine settings) :=
  ((staged_oneClass newName_counter).ready (sites_oneClass newName_counter) ..).1

theorem openSite_readingEngine :
    (World.start (oneClass settings "Counter" ["count"]
      [method "getDoubled" [] .doubleCount])).openSite 1 .read "doubled" =
        .ok (.start (readingEngine settings)) :=
  (staged_oneClass newName_counter).openFirst (sites_oneClass newName_counter) ..

/-- The second site has another number than the one that is there. -/
theorem newSite_readingEngine : (readingEngine settings).sites.get? (.numbered 2) = none := by
  have hnew : .numbered 2 ∉ (readingEngine settings).sites.keys := by
    rw [ready_readingEngine.keys]
    decide
  rw [Table.get?_eq_none_iff.mpr hnew]

theorem openSite_propertyEngine : (World.start (readingEngine settings)).openSite 2 .write "count" =
    .ok (.start (propertyEngine settings)) :=
  World.openSite_of_ok (ready_readingEngine.openSite 2 newSite_readingEngine ..).1

theorem staged_propertyEngine : Staged settings (propertyEngine settings) :=
  (ready_readingEngine.openSite 2 newSite_readingEngine ..).2.1

theorem sites_propertyEngine : (propertyEngine settings).sites =
    (readingEngine settings).sites.insert (.numbered 2)
      (.create 2 .write "count" settings.cacheCapacity) :=
  (ready_readingEngine.openSite 2 newSite_readingEngine ..).2.2.2

theorem build_propertyAccess : Fixture.build .propertyAccess (.start (build settings)) =
    .ok (.property soleObject,
      ⟨propertyEngine settings, (Heap.empty.create ⟨8⟩ [("count", .int 0)]).2⟩) := by
  simp only [Fixture.build, define_start newName_counter, openSite_readingEngine,
    openSite_propertyEngine, create_start, bind, Except.bind]
  rfl

theorem opened_reading (hvalid : settings.fault? = none) :
    Opened settings (.numbered 1) 1 .read "doubled" (propertyEngine settings) :=
  staged_propertyEngine.opened hvalid (by
    rw [sites_propertyEngine, Table.get?_insert, if_neg (by simp), ready_readingEngine.site])

theorem opened_writing (hvalid : settings.fault? = none) :
    Opened settings (.numbered 2) 2 .write "count" (propertyEngine settings) :=
  staged_propertyEngine.opened hvalid (by rw [sites_propertyEngine, Table.get?_insert, if_pos rfl])

theorem keys_propertyEngine :
    (propertyEngine settings).sites.keys = [.numbered 1, .numbered 2] := by
  rw [sites_propertyEngine, Table.keys_insert, ready_readingEngine.keys]
  rfl

theorem receiver_propertyEngine :
    Receiver.ofValue (propertyEngine settings).registry soleObject = .plain ⟨8⟩ :=
  staged_propertyEngine.plain _

theorem registry_propertyEngine : (propertyEngine settings).registry =
    (oneClass settings "Counter" ["count"] [method "getDoubled" [] .doubleCount]).registry := by
  rw [propertyEngine, (ready_readingEngine.openSite 2 newSite_readingEngine ..).2.2.1]
  exact ((staged_oneClass newName_counter).ready (sites_oneClass newName_counter) ..).2

/-- The method that the class declares. -/
def getDoubled : Method Action := (method "getDoubled" [] .doubleCount).install .declared 5

theorem lookup_reading : (propertyEngine settings).registry.lookup .read (.plain ⟨8⟩) "doubled" [] =
    .ok (.method getDoubled) := by
  rw [registry_propertyEngine]
  exact Registry.lookup_read (soleMethod_oneClass newName_counter _)
    (noAccessor_oneClass newName_counter _) (by decide) rfl

theorem lookup_writing :
    (propertyEngine settings).registry.lookup .write (.plain ⟨8⟩) "count" [.int] =
      .ok (.writeField "count") := by
  rw [registry_propertyEngine]
  refine Registry.lookup_writeField (staged_oneClass newName_counter).reachable.sound
    (declares_oneClass newName_counter) (noAccessor_oneClass newName_counter _)
    (unknown_oneClass newName_counter ?_ (by decide)) ?_ _
  · intro d hd
    cases List.mem_singleton.mp hd
    decide
  · rw [registry_oneClass newName_counter]
    rfl

/-- The getter doubles the field of its receiver. -/
theorem carryOut_getDoubled {k : Nat} (hk : k < 2 ^ 62)
    (hcount : heap.field? ⟨1, ⟨8⟩⟩ "count" = some (.int (Int64.ofNat k))) :
    carryOut (.method getDoubled) soleObject [] heap =
      .ok (.int (Int64.ofNat k * 2), heap) := by
  -- the field is there and holds the number that was written
  have hread : intOr0 (soleObject.asObject?.bind fun o => heap.field? o "count") =
      Int64.ofNat k := by
    rw [soleObject, Value.asObject?, Option.bind_some, hcount]
    rfl
  have hvalue : Action.doubleCount.value heap soleObject "getDoubled" [] =
      .ok (.int (Int64.ofNat k * 2)) := by
    rw [Action.value, hread, inRange_double hk]
    rfl
  simp only [getDoubled, method, MethodDecl.install, carryOut, Target.enter, Target.request,
    Signature.arguments, Request.enter]
  simp [hvalue]

/-- Each of the sites got `n` calls. -/
structure PropertyAt (settings : Settings) (n : Nat) (f : Fixture) (w : World) : Prop where
  fixture : f = .property soleObject
  object : (w.heap.get? ⟨1, ⟨8⟩⟩).isSome
  reading : Serves (propertyEngine settings) (.numbered 1)
    (Shape.sequence (fun _ => soleShape []) n) w.engine
  writing : Serves (propertyEngine settings) (.numbered 2)
    (Shape.sequence (fun _ => soleShape [.int 0]) n) w.engine

theorem keeps_property (hvalid : settings.fault? = none) :
    Keeps n (PropertyAt settings) (propertyAccess.number settings) := by
  rintro n _ w - ⟨rfl, hobject, hreading, hwriting⟩
  have hints : ∀ v ∈ [Value.int (Int64.ofNat (n % 100))], ∃ n, v = .int n := by simp
  have hnone : ∀ v ∈ ([] : List Value), ∃ n, v = .int n := by simp
  -- first the write, which leaves the reading site aside, then the read, which leaves the other one
  obtain ⟨w₁, hwrite, hheap₁, hwriting₁⟩ := call_of_serves soleObject (opened_writing hvalid)
    hwriting (v := .int (Int64.ofNat (n % 100))) hints
    (by rw [receiver_propertyEngine]; exact lookup_writing) rfl
  have hreading₁ := aside_of_call (opened_reading hvalid) hreading hints (by simp) hwrite
  -- the object is there, so the field holds what was written
  obtain ⟨hobject₁, hcount⟩ : (w₁.heap.get? ⟨1, ⟨8⟩⟩).isSome ∧
      w₁.heap.field? ⟨1, ⟨8⟩⟩ "count" = some (.int (Int64.ofNat (n % 100))) := by
    rw [hheap₁, Heap.field?, Heap.get?_setField]
    obtain ⟨o, ho⟩ := Option.isSome_iff_exists.mp hobject
    simp [ho]
  obtain ⟨w₂, hread, hheap₂, hreading₂⟩ := call_of_serves soleObject (opened_reading hvalid)
    hreading₁ hnone (by rw [receiver_propertyEngine]; exact lookup_reading)
    (carryOut_getDoubled (k := n % 100) (by omega) hcount)
  have hwriting₂ := aside_of_call (opened_writing hvalid) hwriting₁ hnone (by simp) hread
  refine ⟨.property soleObject, w₂, ?_, rfl, hheap₂ ▸ hobject₁, ?_, ?_⟩
  · simp only [Fixture.step, Fixture.stepProperty, hwrite, hread, bind, Except.bind, expect_int]
    rfl
  · rw [Shape.sequence_succ, ← ofCall_soleObject receiver_propertyEngine]
    exact hreading₂
  · rw [Shape.sequence_succ, soleShape_int 0 (Int64.ofNat (n % 100)),
      ← ofCall_soleObject receiver_propertyEngine]
    exact hwriting₂

theorem verifyProperty_ok {read write : Site Action} (hread : read.resolutions = min 1 n)
    (hwrite : write.resolutions = min 1 n) : Fixture.verifyProperty read write = .ok () := by
  have hfew : ∀ s : Site Action, s.resolutions = min 1 n → s.resolutions ≤ 1 := fun s hs =>
    hs ▸ Nat.min_le_left _ _
  simp [Fixture.verifyProperty, Fixture.ensure, hfew read hread, hfew write hwrite]

theorem succeeds_propertyAccess (hvalid : settings.fault? = none) (hn : n < 2 ^ 62) :
    ∃ o, propertyAccess.Succeeds settings n o := by
  refine succeeds_of_keeps hvalid hn build_propertyAccess
    ⟨rfl, rfl, Engine.serves_start, Engine.serves_start⟩ (keeps_property hvalid)
    fun {f w} h => ?_
  obtain ⟨rfl, -, hreading, hwriting⟩ := h
  obtain ⟨read, hread, hreads, -⟩ := single_of_serves (opened_reading hvalid) hreading
  obtain ⟨write, hwrite, hwrites, -⟩ := single_of_serves (opened_writing hvalid) hwriting
  -- both sites were resolved once, and there are no others
  refine ⟨?_, fun o hsites _ => ?_⟩
  · simp only [Fixture.verify, Fixture.site, World.site?, hread, hwrite]
    exact verifyProperty_ok hreads hwrites
  · have hsome := Engine.numberedSites_of_keys [1, 2]
      (hreading.keys.trans keys_propertyEngine) (by simp)
    rw [List.map_cons, List.map_singleton, hread, hwrite] at hsome
    have hboth : w.engine.numberedSites = [read, write] :=
      List.map_injective_iff.mpr (Option.some_injective _) hsome
    rw [Resolved, hsites, Engine.reports, hboth]
    exact congrArg₂ (fun a b => [a, b]) hreads hwrites

end LateBinding.Scenario
