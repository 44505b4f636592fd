import LateBinding.Proofs.Accounting
import LateBinding.Proofs.Coherence
import LateBinding.Proofs.FreezingPoint

/-!
# Workloads

A workload sets an engine up and then calls its sites. As long as nothing but calls happens, classes
and members stay as they are, apart from cells that come into being. So what calls answer can be
told from the engine as it was set up, and each site is as its own calls make it, whatever other
sites are called with.

* `Engine.Opened`: an engine that is set up, with a site that was not called yet.
* `Engine.Serves`: what it comes to by calls, with the shapes of those of one site.
-/

namespace LateBinding

/-! ## Sequences of shapes -/

namespace Shape

variable {x : Shape} {shapes : Nat → Shape} {period n : Nat}

/-- The shapes of the first `n` calls of a sequence, the latest first. -/
def sequence (shapes : Nat → Shape) (n : Nat) : List Shape := (List.range n).reverse.map shapes

theorem sequence_succ : sequence shapes (n + 1) = shapes n :: sequence shapes n := by
  rw [sequence, List.range_succ, List.reverse_append]
  rfl

theorem length_sequence : (sequence shapes n).length = n := by
  rw [sequence, List.length_map, List.length_reverse, List.length_range]

theorem mem_sequence : x ∈ sequence shapes n ↔ ∃ i < n, shapes i = x := by
  simp [sequence]

/-- If shapes repeat after a while and not earlier, all that are new are met in the first round. -/
theorem rounds (shapes : Nat → Shape) (n : Nat) (hperiod : 0 < period)
    (hinj : ∀ i < period, ∀ j < period, shapes i = shapes j → i = j) :
    (latest (sequence (fun i => shapes (i % period)) n)).length = min period n ∧
      lastNew (sequence (fun i => shapes (i % period)) n) = min period n := by
  induction n with
  | zero => exact ⟨(Nat.min_zero _).symm, (Nat.min_zero _).symm⟩
  | succ n ih =>
    -- the next shape is a repetition exactly when a round is complete
    have hmem : shapes (n % period) ∈ sequence (fun i => shapes (i % period)) n ↔ period ≤ n := by
      rw [mem_sequence]
      refine ⟨fun ⟨i, hi, heq⟩ => ?_, fun h => ⟨n - period, by omega, ?_⟩⟩
      · -- in the first round, an earlier call has another shape
        by_contra hfirst
        have hsame := hinj _ (Nat.mod_lt i hperiod) _ (Nat.mod_lt n hperiod) heq
        rw [Nat.mod_eq_of_lt (by omega), Nat.mod_eq_of_lt (by omega)] at hsame
        omega
      · rw [← Nat.mod_eq_sub_mod h]
    -- hence both counts go up in the first round and stay from then on
    rw [sequence_succ, length_latest_cons, lastNew, length_sequence, ih.1, ih.2]
    by_cases hround : period ≤ n
    · rw [if_pos (hmem.mpr hround), if_pos (hmem.mpr hround)]
      omega
    · rw [if_neg (mt hmem.mp hround), if_neg (mt hmem.mp hround)]
      omega

end Shape

/-! ## Cells -/

/-- An object has the same members of its own when cells of classes come into being. -/
theorem Registry.ofValue_materializeAll {β : Type} (r : Registry β) (cs : List ClassRef)
    (v : Value) : Receiver.ofValue (r.materializeAll cs) v = .ofValue r v := by
  refine ofValue_congr fun obj _ => ?_
  induction cs generalizing r with
  | nil => rfl
  | cons c rest ih => rw [materializeAll_cons, ih, cell?_ensureClass_ofObject]

/-- All cells that a valid guard notes are there. -/
theorem Guard.exists_version {β : Type} {r : Registry β} {guard : Guard} {receiver : Receiver}
    (hcur : guard.isCurrent r) (hfor : guard.IsFor receiver) :
    ∀ o ∈ receiver.owners, ∃ n, r.version? o = some n := by
  obtain ⟨hcls, hown⟩ := Guard.isCurrent_iff.mp hcur
  intro o ho
  rcases List.mem_cons.mp ho with rfl | ho
  · exact ⟨_, hfor.1 ▸ hcls⟩
  · obtain ⟨obj, hobj, rfl⟩ := List.mem_map.mp ho
    rw [Option.mem_toList, ← hfor.2] at hobj
    obtain ⟨⟨obj', n⟩, hnote, rfl⟩ := Option.map_eq_some_iff.mp hobj
    exact ⟨n, hown obj' n hnote⟩

namespace Engine

variable {β : Type} {settings : Settings} {g₀ g : Engine β} {key key' : SiteKey} {id : Nat}
variable {access : Access} {name : String} {shapes : List Shape} {s : Site β} {receiver : Value}
variable {args : List Value} {t : Target β}

/-! ## Setting up -/

/-- The engine was set up, and the site of a key created in it. -/
structure Opened (settings : Settings) (key : SiteKey) (id : Nat) (access : Access) (name : String)
    (g : Engine β) : Prop where
  valid : settings.fault? = none
  run : Run Orderly (build settings) g
  policy : g.policy = .ofSettings settings
  site : g.sites.get? key = some (.create id access name settings.cacheCapacity)

theorem create_of_valid (hvalid : settings.fault? = none) :
    (create settings : Except DispatchError (Engine β)) = .ok (build settings) := by
  simp only [create, Settings.validate, hvalid]

/-- Valid settings have room, but not for ever so many entries. -/
theorem room_of_valid (hvalid : settings.fault? = none) :
    1 ≤ settings.cacheCapacity ∧ settings.cacheCapacity ≤ maxCacheCapacity := by
  unfold Settings.fault? at hvalid
  split at hvalid
  · cases hvalid
  · next hroom => simpa [Nat.one_le_iff_ne_zero] using hroom

theorem room_lt_last (hvalid : settings.fault? = none) : settings.cacheCapacity < Word.last :=
  Nat.lt_of_le_of_lt (room_of_valid hvalid).2 (by decide)

theorem launched_of_run (hvalid : settings.fault? = none) (hrun : Run Orderly (build settings) g) :
    g.Launched :=
  hrun.preserves (fun _ op _ h => h.perform op) ⟨settings, _, create_of_valid hvalid, .refl⟩

/-! ## Calling -/

/-- From `g₀`, nothing but calls led to `g`. Those of the site of a key were answered; their shapes
are listed, the latest first. -/
structure Serves (g₀ : Engine β) (key : SiteKey) (shapes : List Shape) (g : Engine β) : Prop where
  run : Run Orderly g₀ g
  logged : ∃ log, Logged KeepsPolicy key g₀ g log ∧ (∀ c ∈ log, c.answer.isOk) ∧
    log.map (·.shape) = shapes
  cells : ∃ cs, g.registry = g₀.registry.materializeAll cs
  keys : g.sites.keys = g₀.sites.keys

theorem serves_start : Serves g₀ key [] g₀ where
  run := .refl
  logged := ⟨[], .start, fun _ hc => absurd hc List.not_mem_nil, rfl⟩
  cells := ⟨[], rfl⟩
  keys := rfl

theorem Serves.policy (h : Serves g₀ key shapes g) : g.policy = g₀.policy := by
  obtain ⟨log, hlog, -⟩ := h.logged
  exact hlog.policy

theorem Serves.ofValue (h : Serves g₀ key shapes g) (v : Value) :
    Receiver.ofValue g.registry v = .ofValue g₀.registry v := by
  obtain ⟨cs, hcs⟩ := h.cells
  rw [hcs, Registry.ofValue_materializeAll]

section

variable (hg : Opened settings key id access name g₀) (h : Serves g₀ key shapes g)
include hg h

theorem Serves.orderly : ReachableBy Orderly g := ⟨settings, hg.run.trans h.run⟩

theorem Serves.launched : g.Launched := launched_of_run hg.valid (hg.run.trans h.run)

/-- The site is still the one for the member that was asked for, and all its entries are valid. -/
theorem Serves.site : ∃ s, g.sites.get? key = some s ∧ s.access = access ∧ s.name = name ∧
    s.Current g.registry := by
  obtain ⟨log, hlog, -⟩ := h.logged
  -- a new site has no entries, so nothing on it can be out of date
  have hempty : (Site.create id access name settings.cacheCapacity : Site β).Current g₀.registry :=
    Site.current_of_empty (entries_of_fresh (.created ..))
  obtain ⟨s, hs, hcurrent, haccess, hname⟩ :=
    hlog.carry (P := fun s _ => s.access = access ∧ s.name = name)
      (launched_of_run hg.valid hg.run).reachable hg.site hempty ⟨rfl, rfl⟩
      -- a call changes neither what the site is asked for nor which name
      fun {g calls s receiver args} _ _ _ hsame => by
        have hserved : s.Served g.resolver (.ofCall g.registry receiver args)
          (s.dispatch g.policy g.resolver receiver args) := Site.served_dispatch
        generalize hout : s.dispatch g.policy g.resolver receiver args = out at hserved ⊢
        cases hserved with
        | hit _ _ hs' | asked hs' => exact ⟨hs'.access.trans hsame.1, hs'.name.trans hsame.2⟩
  exact ⟨s, hs, haccess, hname, hcurrent⟩

/-- A call answers what looking up yields in the engine as it was set up. -/
theorem Serves.answer (hlookup : g₀.registry.lookup access (.ofValue g₀.registry receiver) name
    (args.map Value.classOf) = .ok t) : (g.dispatch key receiver args).1 = some (.ok t) := by
  obtain ⟨s, hs, haccess, hname, -⟩ := h.site hg
  have hreach := h.orderly hg
  obtain ⟨cs, hcs⟩ := h.cells
  rw [(hreach.coherent.faithful hreach.reachable).dispatch key s receiver args hs, haccess, hname,
    h.ofValue, hcs, Registry.lookup_materializeAll, hlookup]

end

theorem keys_perform_dispatch : (g.perform (.dispatch key receiver args)).sites.keys =
    g.sites.keys := by
  cases hs : g.sites.get? key with
  | none => simp only [perform, dispatch, hs]
  | some s =>
    simp only [perform, dispatch_of_site hs, Table.keys_insert,
      if_pos (Table.mem_keys_of_get? hs)]

/-- A call brings cells into being. -/
theorem cells_perform_dispatch (g : Engine β) (key : SiteKey) (receiver : Value)
    (args : List Value) : ∃ cs,
      (g.perform (.dispatch key receiver args)).registry = g.registry.materializeAll cs := by
  rcases registry_perform g (.dispatch key receiver args) with ⟨f, hf, -⟩ | hcs
  · cases hf
  · exact hcs

theorem Run.call (hrun : Run Orderly g₀ g) (hargs : ∀ v ∈ args, g.Known v) :
    Run Orderly g₀ (g.perform (.dispatch key receiver args)) :=
  hrun.tail ⟨.dispatch key receiver args, ⟨hargs, fun _ _ => nofun⟩, rfl⟩

/-- What all calls have in common, whichever site they are for. -/
theorem Serves.dispatch (h : Serves g₀ key shapes g) (hargs : ∀ v ∈ args, g.Known v) :
    Run Orderly g₀ (g.perform (.dispatch key' receiver args)) ∧
      (∃ cs, (g.perform (.dispatch key' receiver args)).registry =
        g₀.registry.materializeAll cs) ∧
      (g.perform (.dispatch key' receiver args)).sites.keys = g₀.sites.keys := by
  obtain ⟨cs, hcs⟩ := h.cells
  obtain ⟨ds, hds⟩ := cells_perform_dispatch g key' receiver args
  refine ⟨h.run.call hargs, ⟨cs ++ ds, ?_⟩, keys_perform_dispatch.trans h.keys⟩
  rw [hds, hcs]
  exact (List.foldl_append ..).symm

section

variable (hg : Opened settings key id access name g₀) (h : Serves g₀ key shapes g)
variable (hargs : ∀ v ∈ args, g.Known v)
include hg h hargs

/-- A call that looking up has an answer for is answered so, and adds its shape. -/
theorem Serves.call (hlookup : g₀.registry.lookup access (.ofValue g₀.registry receiver) name
    (args.map Value.classOf) = .ok t) : (g.dispatch key receiver args).1 = some (.ok t) ∧
      Serves g₀ key (.ofCall g₀.registry receiver args :: shapes)
        (g.perform (.dispatch key receiver args)) := by
  have hanswer := h.answer hg hlookup
  obtain ⟨hrun, hcells, hkeys⟩ := h.dispatch hargs
  obtain ⟨s, hs, -⟩ := h.site hg
  obtain ⟨log, hlog, hanswered, hshapes⟩ := h.logged
  refine ⟨hanswer, hrun, ⟨_, hlog.call hs, fun c hc => ?_, ?_⟩, hcells, hkeys⟩
  -- the new call is answered, and so were those of before
  · rcases List.mem_cons.mp hc with rfl | hc
    · rw [dispatch_of_site hs] at hanswer
      rw [noted, Option.some.inj hanswer]
      rfl
    · exact hanswered c hc
  -- what the receiver counts as has not changed since the start
  · rw [List.map_cons, hshapes, noted, Shape.ofCall, Shape.ofCall, h.ofValue]

/-- The calls of another site do not matter. -/
theorem Serves.aside (hne : key' ≠ key) :
    Serves g₀ key shapes (g.perform (.dispatch key' receiver args)) := by
  obtain ⟨hrun, hcells, hkeys⟩ := h.dispatch hargs
  obtain ⟨log, hlog, hrest⟩ := h.logged
  have hspares : Operation.Spares key (.dispatch key' receiver args : Operation β) := by
    refine ⟨?_, nofun, ?_⟩
    -- the other call is neither a reset nor a renewal of this site, and it has another key
    · rintro (heq | heq) <;> cases heq
    · rintro _ _ heq
      exact hne (Operation.dispatch.inj heq).1
  refine ⟨hrun, ⟨log, hlog.other (frame_perform _ _).1 hspares ?_, hrest⟩, hcells, hkeys⟩
  -- the versions that valid entries rely on are there, so bringing cells into being leaves them
  intro s hs x hx o ho
  obtain ⟨s', hs', -, -, hcurrent⟩ := h.site hg
  rw [hs] at hs'
  cases hs'
  obtain ⟨e, he, rfl⟩ := List.mem_map.mp hx
  have hrecalls : s.Recalls e.shape ⟨e.target, e.guard⟩ :=
    ⟨e, .inl (Site.mem_entries.mp he), rfl, rfl, rfl⟩
  have hfor := ((h.launched hg).reachable.founded (.site hs hrecalls)).isFor
  obtain ⟨n, hn⟩ := Guard.exists_version (hcurrent e he) hfor o ho
  obtain ⟨cs, hcs⟩ := cells_perform_dispatch g key' receiver args
  rw [hcs, hn, Registry.version?_materializeAll hn]

end

/-- The site is as its calls make it, if their shapes fit. -/
theorem Serves.paced (hg : Opened settings key id access name g₀) (h : Serves g₀ key shapes g)
    (hfits : (Shape.latest shapes).length ≤ settings.cacheCapacity) :
    ∃ s, g.sites.get? key = some s ∧ s.resolutions = (Shape.latest shapes).length ∧
      s.phase ≠ .megamorphic ∧ (s.phase = .frozen ↔
        settings.optimizeThreshold < shapes.length ∧
          min settings.stableWindow settings.optimizeThreshold ≤
            shapes.length - Shape.lastNew shapes) := by
  obtain ⟨log, hlog, hanswered, rfl⟩ := h.logged
  have hroom : max settings.cacheCapacity 1 = settings.cacheCapacity :=
    Nat.max_eq_left (room_of_valid hg.valid).1
  obtain ⟨s, hs, hpaced⟩ := hlog.paced (launched_of_run hg.valid hg.run) hg.site
    (hroom.symm ▸ room_lt_last hg.valid) hanswered (hroom.symm ▸ hfits)
  refine ⟨s, hs, hpaced.resolutions, hpaced.phase, ?_⟩
  rw [hpaced.frozen, Policy.isStable_iff, hg.policy, List.length_map, ← hpaced.calls,
    ← hpaced.lastNewShapeAt]
  rfl

end Engine

end LateBinding
