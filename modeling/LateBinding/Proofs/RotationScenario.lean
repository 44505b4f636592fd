import LateBinding.Proofs.Growth
import LateBinding.Proofs.SteadyScenarios

/-!
# The scenario with receiver classes in rotation

The rotation declares as many classes as its site has room for, all with a method of the same name,
and calls an object of each in turn. So all shapes are new in the first round and none of them after
that, and the site resolves each of them once.
-/

namespace LateBinding

/-! ## Declaring many classes -/

namespace Hierarchy

variable {h : Hierarchy} {d : ClassHeader} {name : String}

/-- A declaration takes the name that it declares and no other one. -/
theorem byName?_push (hold : h.byName? name = none) (hne : d.name ≠ name) :
    (h.push d).byName? name = none := by
  refine List.find?_eq_none.mpr fun c hc => ?_
  obtain ⟨i, hi, rfl⟩ := List.mem_map.mp hc
  rw [List.mem_range, size_push] at hi
  rcases Nat.lt_succ_iff_lt_or_eq.mp hi with hlt | rfl
  · have hother := List.find?_eq_none.mp hold ⟨i⟩ (List.mem_map_of_mem (List.mem_range.mpr hlt))
    rwa [nameOf, get?_push_of_declares d hlt]
  · rw [nameOf, get?_push_new]
    simpa using hne

end Hierarchy

namespace Scenario

open Engine (Opened Serves build)

variable {settings : Settings} {w : World} {j k n bound : Nat} {g : Engine Action}

/-- The name of a receiver class. -/
def ringName (j : Nat) : String := "Receiver" ++ toString j

theorem ringName_injective : ringName.Injective := by
  intro j k h
  have hdigits := (String.append_right_inj _).mp h
  rw [Nat.toString_eq_ofList_toDigits, Nat.toString_eq_ofList_toDigits] at hdigits
  have hlist := congrArg (Nat.ofDigitChars 10 ·.toList 0) hdigits
  simpa using hlist

/-- No builtin class has such a name. -/
theorem ringName_builtin : Hierarchy.builtin.byName? (ringName j) = none := by
  have hothers : ∀ c ∈ Hierarchy.builtin.all,
      ¬ "Receiver".toList <+: (Hierarchy.builtin.nameOf c).toList := by
    decide
  refine List.find?_eq_none.mpr fun c hc => ?_
  have hother := hothers c hc
  intro hname
  rw [of_decide_eq_true hname, ringName, String.toList_append] at hother
  exact hother (List.prefix_append _ _)

/-! ## The ring of receivers -/

/-- The engine in which so many receiver classes were declared and nothing else was done. -/
structure Ring (settings : Settings) (k : Nat) (g : Engine Action) : Prop
    extends Staged settings g where
  sites : g.sites = .empty
  size : g.registry.hierarchy.size = 8 + k
  names : ∀ j, k ≤ j → g.registry.hierarchy.byName? (ringName j) = none
  lookup : ∀ j < k, ∃ m, g.registry.lookup .method (.plain ⟨8 + j⟩) "receive" [] =
    .ok (.method m) ∧ m.signature = ⟨"receive", [], false⟩ ∧
      m.code = .body (.constant (.int (Int64.ofNat j)))

theorem ring_build : Ring settings 0 (build settings) where
  toStaged := staged_build
  sites := rfl
  size := rfl
  names _ _ := ringName_builtin
  lookup _ hj := absurd hj (Nat.not_lt_zero _)

/-- Calls of classes that are there are resolved as before when another class is declared. -/
theorem Staged.lookup_define (h : Staged settings g) {name : String}
    (hname : g.registry.hierarchy.byName? name = none) (methods : List (MethodDecl Action))
    {receiver : Receiver} (hreceiver : g.registry.hierarchy.Declares receiver.cls) {access : Access}
    {member : String} {t : Target Action}
    (hlookup : g.registry.lookup access receiver member [] = .ok t) :
    (g.perform (.define ⟨name, none, [], false, []⟩ methods)).registry.lookup access receiver
      member [] = .ok t := by
  have hdefine : g.registry.define ⟨name, none, [], false, []⟩ methods = _ :=
    Registry.define_of_new_name hname methods
  rw [Engine.perform_of_change rfl, hdefine]
  exact Registry.lookup_define h.reachable.sound hdefine hreceiver
    (fun _ ha => absurd ha List.not_mem_nil) hlookup

/-- The next receiver class is number `8 + k` of all classes. -/
theorem Ring.define (h : Ring settings k w.engine) : ∃ w',
    w.define (ringName k) [] [method "receive" [] (.constant (.int (Int64.ofNat k)))] =
      .ok (⟨8 + k⟩, w') ∧ Ring settings (k + 1) w'.engine := by
  have hname := h.names k (Nat.le_refl _)
  obtain ⟨hok, hstaged, hsites, hhierarchy⟩ := h.toStaged.define hname []
    [method "receive" [] (.constant (.int (Int64.ofNat k)))]
  have hsole := h.toStaged.soleMethod hname []
    (method "receive" [] (.constant (.int (Int64.ofNat k))))
  rw [h.size] at hok hsole
  -- the class gets the next number and its name the next index, and the classes of before keep
  -- theirs
  refine ⟨_, World.define_of_ok hok, hstaged, hsites.trans h.sites, ?_, fun j hj => ?_,
    fun j hj => ?_⟩
  · rw [hhierarchy, Hierarchy.size_push, h.size, Nat.add_assoc]
  · rw [hhierarchy]
    exact Hierarchy.byName?_push (h.names j (by omega)) fun heq =>
      absurd (ringName_injective heq) (by omega)
  · rcases Nat.lt_succ_iff_lt_or_eq.mp hj with hlt | rfl
    · obtain ⟨m, hlookup, hm⟩ := h.lookup j hlt
      -- declaring a class takes nothing back from the methods of the earlier ones
      refine ⟨m, h.toStaged.lookup_define hname _ ?_ hlookup, hm⟩
      show 8 + j < w.engine.registry.hierarchy.size
      rw [h.size]
      omega
    · exact ⟨_, hsole.lookup [] rfl, rfl, rfl⟩

/-- The receivers, object by object. -/
structure Receivers (k : Nat) (values : Array Value) : Prop where
  size : values.size = k
  object : ∀ j < k, ∃ o : ObjectRef, values[j]? = some (.object o) ∧ o.cls = ⟨8 + j⟩

theorem Receivers.push {values : Array Value} {o : ObjectRef} (h : Receivers k values)
    (ho : o.cls = ⟨8 + k⟩) : Receivers (k + 1) (values.push (.object o)) where
  size := by rw [Array.size_push, h.size]
  object j hj := by
    rcases Nat.lt_succ_iff_lt_or_eq.mp hj with hlt | rfl
    · rw [Array.getElem?_push_lt (h.size ▸ hlt)]
      obtain ⟨o', hvalue, ho'⟩ := h.object j hlt
      rw [Array.getElem?_eq_getElem (h.size ▸ hlt)] at hvalue
      exact ⟨o', hvalue, ho'⟩
    · exact ⟨o, by rw [← h.size, Array.getElem?_push_size], ho⟩

theorem receivers_ring (left : Nat) (values : Array Value) (hring : Ring settings k w.engine)
    (hvalues : Receivers k values) : ∃ values' w',
      Fixture.receivers left k values w = .ok (values', w') ∧
        Ring settings (k + left) w'.engine ∧ Receivers (k + left) values' := by
  induction left generalizing k values w with
  | zero => exact ⟨values, w, rfl, hring, hvalues⟩
  | succ left ih =>
    obtain ⟨w₁, hdefine, hring₁⟩ := hring.define
    obtain ⟨values', w', hrest, hring', hvalues'⟩ :=
      ih (values.push (w₁.create ⟨8 + k⟩ []).1) (w := (w₁.create ⟨8 + k⟩ []).2) hring₁
        (hvalues.push (o := (w₁.heap.create ⟨8 + k⟩ []).1) rfl)
    refine ⟨values', w', ?_, ?_, ?_⟩
    · rw [ringName] at hdefine
      simp only [Fixture.receivers, hdefine, bind, Except.bind]
      exact hrest
    · rwa [Nat.add_right_comm] at hring'
    · rwa [Nat.add_right_comm] at hvalues'

theorem receivers_start (settings : Settings) (k : Nat) : ∃ values w,
    Fixture.receivers k 0 #[] (.start (build settings)) = .ok (values, w) ∧
      Ring settings k w.engine ∧ Receivers k values := by
  have hnone : Receivers 0 #[] := ⟨rfl, fun _ hj => absurd hj (Nat.not_lt_zero _)⟩
  have hstart : Ring settings 0 (World.start (build settings)).engine := ring_build
  obtain ⟨values, w, hreceivers, hring, hvalues⟩ := receivers_ring k #[] hstart hnone
  rw [Nat.zero_add] at hring hvalues
  exact ⟨values, w, hreceivers, hring, hvalues⟩

/-! ## The site -/

/-- The engine as it is set up once the receivers are there. -/
def rotationEngine (g : Engine Action) : Engine Action :=
  g.perform (.openSite 1 .method "receive")

theorem Ring.ready (h : Ring settings k g) : Ready settings .method "receive" (rotationEngine g) ∧
    (rotationEngine g).registry = g.registry :=
  h.toStaged.ready h.sites ..

/-- Setting up a rotation of so many receivers. -/
theorem buildRotation_start (settings : Settings) (k : Nat) (shuffled : Bool) : ∃ values g heap,
    Fixture.buildRotation k shuffled (.start (build settings)) =
      .ok (.rotation values shuffled, ⟨rotationEngine g, heap⟩) ∧
      Ring settings k g ∧ Receivers k values := by
  obtain ⟨values, w, hreceivers, hring, hvalues⟩ := receivers_start settings k
  have hopen : w.openSite 1 .method "receive" = .ok ⟨rotationEngine w.engine, w.heap⟩ :=
    hring.toStaged.openFirst hring.sites ..
  refine ⟨values, w.engine, w.heap, ?_, hring, hvalues⟩
  simp only [Fixture.buildRotation, hreceivers, bind, Except.bind, hopen]
  rfl

/-- Whose turn it is in a step, counted on and on. -/
def turn (shuffled : Bool) (step : Nat) : Nat := if shuffled then mix step else step

/-- The shape of calls of receiver number `j`. -/
def turnShape (j : Nat) : Shape := ⟨.plain ⟨8 + j⟩, .ofArgs []⟩

theorem turnShape_injective : turnShape.Injective := by
  intro j k h
  simpa [turnShape] using h

/-- In order or shuffled, a step calls the receiver whose turn it is, which tells its number. -/
theorem keeps_rotation (hvalid : settings.fault? = none) {values : Array Value} (shuffled : Bool)
    (hpos : 0 < k) (hring : Ring settings k g) (hvalues : Receivers k values) :
    Keeps bound (OneSiteAt (.rotation values shuffled) (rotationEngine g) fun i =>
      turnShape (turn shuffled i % k)) fun i => turn shuffled i % k := by
  -- what the step needs is all about the receiver whose turn it is
  rintro n _ w - ⟨rfl, h⟩
  have hturn : turn shuffled n % k < k := Nat.mod_lt _ hpos
  obtain ⟨hready, hregistry⟩ := hring.ready
  obtain ⟨o, hvalue, ho⟩ := hvalues.object _ hturn
  obtain ⟨m, hlookup, hsignature, hcode⟩ := hring.lookup _ hturn
  have hreceiver : Receiver.ofValue (rotationEngine g).registry (.object o) =
      .plain ⟨8 + turn shuffled n % k⟩ := by
    rw [hready.plain, ho]
  have hshape : Shape.ofCall (rotationEngine g).registry (.object o) [] =
      turnShape (turn shuffled n % k) := by
    rw [Shape.ofCall, hreceiver]
    rfl
  obtain ⟨w', hcall, h'⟩ := h.call (.object o) [] (hready.opened hvalid)
    (fun _ hv => absurd hv List.not_mem_nil) hshape
    (by rw [hreceiver, hregistry]; exact hlookup)
    (carryOut_constant (by rw [hsignature]) (by rw [hsignature]) hcode)
  refine ⟨.rotation values shuffled, w', ?_, rfl, h'⟩
  -- the same index, written out as the step computes it
  rw [turn] at hvalue hcall
  simp only [Fixture.step, Fixture.stepRotation, hvalues.size, hvalue, Option.getD_some, hcall,
    bind, Except.bind, turn, expect_int]
  rfl

theorem verifyRotation_ok {s : Site Action} (hphase : s.phase ≠ .megamorphic)
    (hresolutions : s.resolutions = min k n) : Fixture.verifyRotation s k n = .ok () := by
  simp only [Fixture.verifyRotation, Fixture.ensure, hphase, hresolutions, ne_eq, not_false_eq_true,
    decide_true, if_true]
  rfl

theorem succeeds_roundRobin (hvalid : settings.fault? = none) (hn : n < 2 ^ 62) :
    ∃ o, roundRobin.Succeeds settings n o := by
  obtain ⟨values, g, heap, hbuild, hring, hvalues⟩ :=
    buildRotation_start settings settings.cacheCapacity false
  have hready := hring.ready.1
  have hpos : 0 < settings.cacheCapacity := (Engine.room_of_valid hvalid).1
  refine succeeds_of_keeps hvalid hn hbuild ⟨rfl, oneSite_start hready.keys⟩
    (keeps_rotation hvalid false hpos hring hvalues) fun {f w} h => ?_
  obtain ⟨rfl, h⟩ := h
  -- in a full round all receivers have their turn, and later rounds bring no new shape
  have hlatest : (Shape.latest (Shape.sequence (fun i =>
      turnShape (turn false i % settings.cacheCapacity)) n)).length =
        min settings.cacheCapacity n :=
    (Shape.rounds turnShape n hpos fun i _ j _ heq => turnShape_injective heq).1
  obtain ⟨s, hs, hresolutions, hphase, -⟩ :=
    h.serves.paced (hready.opened hvalid) (hlatest ▸ Nat.min_le_left _ _)
  rw [hlatest] at hresolutions
  -- the fixture's own verification passes, and the outcome reports the resolutions
  refine ⟨?_, fun o hsites _ => ?_⟩
  · simp only [Fixture.verify, Fixture.site, World.site?, hs, hvalues.size]
    exact verifyRotation_ok hphase hresolutions
  · rw [Resolved, hsites, h.reports hs, hresolutions]

end Scenario

end LateBinding
