import LateBinding.Proofs.Workloads
import LateBinding.Scenario.Run
import Mathlib.Algebra.BigOperators.Group.Finset.Basic

/-!
# Runs of scenarios

What running a scenario comes to, apart from what the scenario is: calls of its world are calls of
the engine and bodies that run; if each step keeps an invariant, so does the whole run
(`Scenario.drivenTo_of_keeps`), and the scenario succeeds if the invariant lets it pass
(`Scenario.succeeds_of_keeps`); and the sites that are reported are those of the engine, by number.
-/

namespace LateBinding

/-! ## Reported sites -/

namespace Table

variable {κ ν : Type} [DecidableEq κ] {t : Table κ ν}

/-- The values of a table, in the order of its keys. -/
theorem map_get?_keys (ht : t.keys.Nodup) : t.keys.map t.get? = t.values.map some := by
  obtain ⟨entries⟩ := t
  simp only [keys, values] at ht ⊢
  induction entries with
  | nil => rfl
  | cons p rest ih =>
    obtain ⟨k, v⟩ := p
    obtain ⟨hnew, hrest⟩ := List.nodup_cons.mp ht
    rw [List.map_cons, List.map_cons, List.map_cons, List.map_cons, ← ih hrest]
    refine congrArg₂ _ (if_pos rfl) (List.map_congr_left fun k' hk' => if_neg ?_)
    rintro rfl
    exact hnew hk'

end Table

namespace Engine

variable {β : Type} {g : Engine β} {ids : List Nat}

/-- A numbered site with its number. -/
def numbered? (p : SiteKey × Site β) : Option (Nat × Site β) :=
  match p.1 with
  | .numbered id => some (id, p.2)
  | .detached _ => none

theorem filterMap_numbered? {entries : List (SiteKey × Site β)}
    (h : entries.map (·.1) = ids.map .numbered) :
    entries.filterMap numbered? = ids.zip (entries.map (·.2)) := by
  induction entries generalizing ids with
  | nil =>
    cases ids with
    | nil => rfl
    | cons => cases h
  | cons p rest ih =>
    obtain ⟨key, s⟩ := p
    cases ids with
    | nil => cases h
    | cons id ids =>
      obtain ⟨hkey, hrest⟩ := List.cons.inj h
      cases (show key = .numbered id from hkey)
      exact congrArg _ (ih hrest)

/-- If all sites are numbered and were opened in order, they are reported in this order. -/
theorem numberedSites_of_keys (ids : List Nat) (hkeys : g.sites.keys = ids.map .numbered)
    (hids : ids.Pairwise (· < ·)) :
    g.numberedSites.map some = ids.map fun id => g.sites.get? (.numbered id) := by
  have hlength : ids.length = g.sites.values.length := by
    have hcount := congrArg List.length hkeys
    rw [Table.keys, List.length_map, List.length_map] at hcount
    rw [Table.values, List.length_map, hcount]
  -- the numbers stand in order already, so sorting by them changes nothing
  have hsorted : (ids.zip g.sites.values).Pairwise fun a b => a.1 ≤ b.1 := by
    have hfst : (ids.zip g.sites.values).map Prod.fst = ids := List.map_fst_zip hlength.le
    rw [← hfst, List.pairwise_map] at hids
    exact hids.imp Nat.le_of_lt
  have hsites : g.numberedSites = g.sites.values := by
    show ((g.sites.entries.filterMap numbered?).mergeSort fun a b => a.1 ≤ b.1).map (·.2) = _
    rw [filterMap_numbered? hkeys,
      List.mergeSort_of_pairwise (by simpa [Table.values] using hsorted)]
    exact List.map_snd_zip hlength.ge
  have hnodup : g.sites.keys.Nodup := by
    rw [hkeys]
    exact (hids.imp Nat.ne_of_lt).map _ fun a b hne heq => hne (SiteKey.numbered.inj heq)
  rw [hsites, ← Table.map_get?_keys hnodup, hkeys, List.map_map]
  rfl

end Engine

namespace Scenario

variable {w : World} {key : SiteKey} {receiver v : Value} {args : List Value} {heap : Heap}
variable {t : Target Action}

/-! ## Calls -/

/-- What calling a target comes to, the body included. -/
def carryOut (t : Target Action) (receiver : Value) (args : List Value) (heap : Heap) :
    Except Failure (Value × Heap) :=
  match t.enter receiver args heap with
  | .finished (.error f) _ => .error (.ofFault f)
  | .finished (.ok v) heap => .ok (v, heap)
  | .running action name args written =>
    match action.value heap receiver name args with
    | .error f => .error f
    | .ok v => .ok (written.getD v, heap)

/-- A call that the engine has a target for is the target carried out. -/
theorem World.call_of_answer (hanswer : (w.engine.dispatch key receiver args).1 = some (.ok t))
    (hcarry : carryOut t receiver args w.heap = .ok (v, heap)) :
    w.call key receiver args =
      .ok (v, ⟨w.engine.perform (.dispatch key receiver args), heap⟩) := by
  rcases hout : w.engine.dispatch key receiver args with ⟨answer, engine⟩
  rw [hout] at hanswer
  cases hanswer
  have hengine : w.engine.perform (.dispatch key receiver args) = engine := congrArg Prod.snd hout
  rw [hengine]
  unfold World.call
  unfold carryOut at hcarry
  simp only [hout]
  -- a finished target is carried out at once, a running one as its action says
  split at hcarry
  · cases hcarry
  · cases hcarry
    simp only [*]
  · split at hcarry
    · cases hcarry
    · cases hcarry
      simp only [*]

/-- Of the engine, a call changes what dispatching it changes. -/
theorem World.engine_of_call {w' : World} (hcall : w.call key receiver args = .ok (v, w')) :
    w'.engine = w.engine.perform (.dispatch key receiver args) := by
  unfold World.call at hcall
  show w'.engine = (w.engine.dispatch key receiver args).2
  generalize w.engine.dispatch key receiver args = out at hcall ⊢
  obtain ⟨_ | _ | t, engine⟩ := out
  · cases hcall
  · cases hcall
  · dsimp only at hcall
    split at hcall
    · cases hcall
    · cases hcall
      rfl
    · split at hcall
      · cases hcall
      · cases hcall
        rfl

theorem inRange_of_lt {operation : Word.Overflow} {n : Nat} (hn : n < 2 ^ 63) :
    inRange operation n = .ok (Int64.ofNat n) :=
  if_pos (Int64.toInt_ofNat_of_lt hn)

/-- Twice the number of a step is in range, as long as there are not too many of them. -/
theorem inRange_double {n : Nat} (hn : n < 2 ^ 62) :
    inRange .multiply ((Int64.ofNat n).toInt * 2) = .ok (Int64.ofNat n * 2) := by
  have hexact : (Int64.ofNat n).toInt * 2 = ((n * 2 : Nat) : Int) := by
    rw [Int64.toInt_ofNat_of_lt (by omega)]
    rfl
  rw [hexact, inRange_of_lt (by omega), Int64.ofNat_mul]
  rfl

/-- A method with a fixed value. -/
theorem carryOut_constant {m : Method Action} (hsignature : m.signature.variadic = false)
    (hparams : m.signature.params = []) (hcode : m.code = .body (.constant v)) :
    carryOut (.method m) receiver [] heap = .ok (v, heap) := by
  have hrequest : Target.request (.method m) [] =
      .ok (.run (.body (.constant v)) m.signature.name []) := by
    simp [Target.request, Signature.arguments, hsignature, hparams, hcode]
  simp [carryOut, Target.enter, hrequest, Request.enter, Action.value]

@[simp] theorem expect_int (n : Int64) : Fixture.expect (.int n) (.int n) = .ok () := by
  simp [Fixture.expect, Value.equal]

/-! ## What scenarios tell -/

/-- The number that a step of a scenario adds to the checksum. -/
def number (settings : Settings) (s : Scenario) (step : Nat) : Nat :=
  match s with
  | .monomorphicHot => 1
  | .coldCall => 2 * step
  | .roundRobin => step % settings.cacheCapacity
  | .megamorphicRandom => mix step % (settings.cacheCapacity * manyFactor + 1)
  | .dynamicFinder => step % 1000
  | .invalidationStorm => step / 500
  | .propertyAccess => step % 100

/-- How often the reported sites of a scenario were resolved in `n` calls. The sites of fresh
objects are not reported; for them the resolver was asked once a call, and had to look up once in
all, or each time if nothing is to be remembered. Nothing is said of the scenario whose shapes
come in a random-looking order. -/
def Resolved (settings : Settings) (s : Scenario) (n : Nat) (o : Outcome) : Prop :=
  match s with
  | .monomorphicHot | .dynamicFinder => o.sites.map (·.resolutions) = [min 1 n]
  | .coldCall => o.sites = [] ∧ o.metrics.resolverInvocations = n ∧
    o.metrics.fullResolutions = if settings.memoizeResolutions then min 1 n else n
  | .roundRobin => o.sites.map (·.resolutions) = [min settings.cacheCapacity n]
  | .megamorphicRandom => True
  | .invalidationStorm => o.sites.map (·.resolutions) = [if n = 0 then 0 else 1 + (n - 1) / 500]
  | .propertyAccess => o.sites.map (·.resolutions) = [min 1 n, min 1 n]

/-- The scenario succeeds. -/
structure Succeeds (settings : Settings) (s : Scenario) (n : Nat) (o : Outcome) : Prop where
  run : s.run settings n = .ok o
  calls : o.calls = n
  checksum : o.checksum = Int64.ofNat (∑ step ∈ Finset.range n, s.number settings step)
  resolved : s.Resolved settings n o

/-! ## Finishing -/

/-- What a scenario tells if it is finished now. -/
def Prepared.outcome (p : Prepared) : Outcome :=
  { scenario := p.scenario, calls := p.calls, checksum := p.checksum
    sites := p.world.engine.reports, metrics := p.world.engine.metrics }

theorem Prepared.finish_of_passes {p : Prepared}
    (h : Fixture.verify p.fixture p.calls p.world = .ok ()) : p.finish = .ok p.outcome := by
  rw [finish, h]
  rfl

/-! ## Driving -/

/-- Each of the first steps keeps the invariant and adds the number that is expected of it to the
checksum. -/
def Keeps (bound : Nat) (Inv : Nat → Fixture → World → Prop) (term : Nat → Nat) : Prop :=
  ∀ {i f w}, i < bound → Inv i f w → ∃ f' w',
    Fixture.step f i w = .ok (Int64.ofNat (term i), f', w') ∧ Inv (i + 1) f' w'

variable {bound : Nat} {Inv : Nat → Fixture → World → Prop} {term : Nat → Nat}

theorem Keeps.driveFrom (hkeeps : Keeps bound Inv term) (sum : Int64) (n : Nat) {p : Prepared}
    (hbound : p.calls + n ≤ bound) (hp : Inv p.calls p.fixture p.world) :
    ∃ sum' p', p.driveFrom sum n = .ok (sum', p') ∧
      Inv p'.calls p'.fixture p'.world ∧ p'.scenario = p.scenario ∧ p'.calls = p.calls + n ∧
      p'.checksum = p.checksum + Int64.ofNat (∑ i ∈ Finset.range n, term (p.calls + i)) := by
  -- Induction on the calls to make, with the invariant at the call that comes next.
  induction n generalizing p sum with
  | zero => exact ⟨sum, p, rfl, hp, rfl, rfl, by simp⟩
  | succ n ih =>
    obtain ⟨f, w, hstep, hinv⟩ := hkeeps (by omega) hp
    obtain ⟨sum', p', hdrive, hinv', hscenario, hcalls, hchecksum⟩ :=
      ih (sum + Int64.ofNat (term p.calls))
        (p := { p with world := w, fixture := f, calls := p.calls + 1
                       checksum := p.checksum + Int64.ofNat (term p.calls) })
        (by rwa [Nat.add_assoc, Nat.add_comm 1 n]) hinv
    refine ⟨sum', p', ?_, hinv', hscenario, ?_, ?_⟩
    · simp only [Prepared.driveFrom, Prepared.advance, hstep]
      exact hdrive
    · rw [hcalls]
      show p.calls + 1 + n = p.calls + (n + 1)
      omega
    -- the terms of the later calls, counted from the next one on
    · have hshift : ∀ i, term (p.calls + 1 + i) = term (p.calls + (i + 1)) := fun i => by
        rw [Nat.add_assoc, Nat.add_comm 1 i]
      rw [hchecksum, Finset.sum_range_succ', Int64.add_assoc, ← Int64.ofNat_add, Nat.add_comm]
      simp only [hshift, Nat.add_zero]

/-- A scenario that was prepared and has made so many calls. -/
def DrivenTo (settings : Settings) (s : Scenario) (n : Nat) (p : Prepared) : Prop :=
  ∃ start sum, s.prepare settings = .ok start ∧ start.drive n = .ok (sum, p)

/-- What is left of a run then is to finish. -/
theorem DrivenTo.run {s : Scenario} {settings : Settings} {n : Nat} {p : Prepared}
    (h : s.DrivenTo settings n p) : s.run settings n = p.finish := by
  obtain ⟨start, sum, hprepare, hdrive⟩ := h
  simp only [Scenario.run, hprepare, hdrive]

/-- If a fixture starts with an invariant that each step keeps, all calls can be made, and it has
the invariant after them. -/
theorem drivenTo_of_keeps {s : Scenario} {settings : Settings} {n : Nat} {f : Fixture}
    (hvalid : settings.fault? = none) (hn : n < Word.size)
    (hbuild : Fixture.build s (.start (Engine.build settings)) = .ok (f, w)) (hstart : Inv 0 f w)
    (hkeeps : Keeps n Inv term) :
    ∃ p : Prepared, s.DrivenTo settings n p ∧ Inv n p.fixture p.world ∧ p.scenario = s ∧
      p.calls = n ∧ p.checksum = Int64.ofNat (∑ i ∈ Finset.range n, term i) := by
  have hprepare : s.prepare settings =
      .ok { scenario := s, world := w, fixture := f, calls := 0, checksum := 0 } := by
    simp only [prepare, Engine.create_of_valid hvalid, hbuild]
  obtain ⟨sum, p, hdrive, hinv, hscenario, hcalls, hchecksum⟩ := hkeeps.driveFrom 0 n
    (p := { scenario := s, world := w, fixture := f, calls := 0, checksum := 0 })
    -- the calls start at zero, so all that is asked is that their number is a word
    (Nat.zero_add n).le hstart
  have hcalls : p.calls = n := hcalls.trans (Nat.zero_add n)
  have hfew : 0 + n < Word.size := (Nat.zero_add n).symm ▸ hn
  rw [hcalls] at hinv
  refine ⟨p, ⟨_, sum, hprepare, ?_⟩, hinv, hscenario, hcalls, ?_⟩
  · rw [Prepared.drive, Word.add_of_lt hfew, hdrive]
  · rw [hchecksum]
    simp

/-- A scenario succeeds if moreover each step adds the number that is expected of it to the
checksum, and the invariant lets the fixture pass. -/
theorem succeeds_of_keeps {s : Scenario} {settings : Settings} {n : Nat} {f : Fixture}
    (hvalid : settings.fault? = none) (hn : n < 2 ^ 62)
    (hbuild : Fixture.build s (.start (Engine.build settings)) = .ok (f, w)) (hstart : Inv 0 f w)
    (hkeeps : Keeps n Inv (s.number settings))
    (hverify : ∀ {f w}, Inv n f w → Fixture.verify f n w = .ok () ∧
      ∀ o : Outcome, o.sites = w.engine.reports → o.metrics = w.engine.metrics →
        s.Resolved settings n o) :
    ∃ o, s.Succeeds settings n o := by
  have hword : n < Word.size := by
    rw [Word.size]
    omega
  obtain ⟨p, hdriven, hinv, -, hcalls, hchecksum⟩ :=
    drivenTo_of_keeps hvalid hword hbuild hstart hkeeps
  obtain ⟨hpasses, hresolved⟩ := hverify hinv
  refine ⟨p.outcome, ?_, hcalls, hchecksum, hresolved p.outcome rfl rfl⟩
  rw [hdriven.run, Prepared.finish_of_passes (hcalls.symm ▸ hpasses)]

end Scenario

end LateBinding
