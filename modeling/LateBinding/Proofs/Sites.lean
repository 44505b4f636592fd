import LateBinding.Proofs.Calls
import LateBinding.Proofs.Slots

/-!
# The condition of call sites

What the slots, the frozen shapes and the number of shapes met have to do with the phase of a
call site. `Condition` says it phase by phase, `Valid` of a whole site, and `Consistent` is what
can be read off the slots. Every part of a call keeps sites valid, so a call does
(`Valid.dispatchShape`), and so does a reset.

`Phase.Follows` says how a call can change the phase: never to `cold`, never away from
`megamorphic`, and not from `polymorphic` to `monomorphic`.
-/

namespace LateBinding

/-- The phase `b` can come right after the phase `a` by a call. -/
def Phase.Follows (b a : Phase) : Prop :=
  (a = .megamorphic → b = .megamorphic) ∧ (b = .cold → a = .cold) ∧
    (a = .polymorphic → b ≠ .monomorphic)

theorem Phase.follows_refl (a : Phase) : a.Follows a := ⟨id, id, fun h => by simp [h]⟩

/-- Only sites that cache some shapes are told anything. -/
theorem Policy.verdict_of_not_isAdaptive {p : Policy} {e : Evidence} (h : ¬ e.phase.isAdaptive) :
    p.verdict e = .keep := by
  simp [verdict, h]

namespace Site

variable {β : Type} {s : Site β} {e : Entry β} {shape : Shape}
variable {p : Policy} {r : Registry β} {q : Resolver β} {room : Nat}

/-! ## The invariant -/

/-- How the frozen entries, the number of shapes met and the entries in the slots go together
in a phase. -/
inductive Condition : Phase → Option (List (Entry β)) → Nat → List (Entry β) → Prop
  | cold {met} : Condition .cold none met []
  | monomorphic {met e} (hmet : 1 ≤ met) : Condition .monomorphic none met [e]
  | polymorphic {met es} (hmet : 1 ≤ met) (hne : es ≠ [])
    (hdistinct : (es.map (·.shape)).Nodup) : Condition .polymorphic none met es
  | megamorphic {met} : Condition .megamorphic none met []
  | frozen {met kept es} (hmet : 1 ≤ met) (hkept : kept ≠ []) (hsub : kept ⊆ es)
    (hdistinct : (es.map (·.shape)).Nodup) : Condition .frozen (some kept) met es

namespace Condition

variable {phase : Phase} {frozen : Option (List (Entry β))} {met : Nat} {es es' : List (Entry β)}

theorem distinct (hc : Condition phase frozen met es) : (es.map (·.shape)).Nodup := by
  cases hc with
  | cold | megamorphic => exact List.nodup_nil
  | monomorphic => exact List.nodup_cons.mpr ⟨by simp, List.nodup_nil⟩
  | polymorphic _ _ hdistinct | frozen _ _ _ hdistinct => exact hdistinct

theorem met_pos (hc : Condition phase frozen met es) (hphase : phase.isAdaptive) : 1 ≤ met := by
  cases hc with
  | cold | megamorphic | frozen => cases hphase
  | monomorphic hmet | polymorphic hmet => exact hmet

theorem frozen_eq_none (hc : Condition phase frozen met es)
    (hphase : phase = .cold ∨ phase.isAdaptive) : frozen = none := by
  cases hc with
  | cold | megamorphic | monomorphic | polymorphic => rfl
  | frozen => rcases hphase with hphase | hphase <;> cases hphase

theorem in_phase (hc : Condition phase frozen met es) :
    (phase = .cold ∨ phase = .megamorphic → es = []) ∧
    (phase = .monomorphic → es.length = 1) ∧
    (phase = .polymorphic ∨ phase = .frozen → es ≠ []) ∧
    (frozen.isSome ↔ phase = .frozen) ∧
    ∀ kept, frozen = some kept → kept ≠ [] ∧ kept ⊆ es := by
  -- read off the constructors; the frozen copy alone needs a word, for it must not be empty
  cases hc with
  | cold | megamorphic | monomorphic => simp
  | polymorphic _ hne => simp [hne]
  | frozen _ hkept hsub =>
    refine ⟨by simp, by simp, fun _ hnil => hkept ?_, by simp, ?_⟩
    · exact List.subset_nil.mp (hnil ▸ hsub)
    · rintro _ ⟨⟩
      exact ⟨hkept, hsub⟩

theorem perm (hc : Condition phase frozen met es) (hperm : es'.Perm es) :
    Condition phase frozen met es' := by
  -- shapes and their number do not depend on the order
  have hshapes := hperm.map (·.shape)
  cases hc with
  | cold => exact hperm.eq_nil ▸ .cold
  | monomorphic hmet => exact hperm.eq_singleton ▸ .monomorphic hmet
  | polymorphic hmet hne hdistinct =>
    refine .polymorphic hmet (fun hnil => hne ?_) (hshapes.nodup_iff.mpr hdistinct)
    exact (hnil ▸ hperm).symm.eq_nil
  | megamorphic => exact hperm.eq_nil ▸ .megamorphic
  | frozen hmet hkept hsub hdistinct =>
    exact .frozen hmet hkept (fun x hx => hperm.mem_iff.mpr (hsub hx))
      (hshapes.nodup_iff.mpr hdistinct)

/-- A change of entries that keeps their shapes, made in the slots and in what is frozen. -/
theorem map {f : Entry β → Entry β} (hf : ∀ e, (f e).shape = e.shape)
    (hc : Condition phase frozen met es) :
    Condition phase (frozen.map (List.map f)) met (es.map f) := by
  have hshapes : (es.map f).map (·.shape) = es.map (·.shape) := by simp [hf]
  cases hc with
  | cold => exact .cold
  | monomorphic hmet => exact .monomorphic hmet
  | polymorphic hmet hne hdistinct =>
    exact .polymorphic hmet (by simpa using hne) (hshapes ▸ hdistinct)
  | megamorphic => exact .megamorphic
  | frozen hmet hkept hsub hdistinct =>
    exact .frozen hmet (by simpa using hkept) (List.map_subset f hsub) (hshapes ▸ hdistinct)

end Condition

/-- What holds of a site at all times. -/
structure Valid (s : Site β) : Prop where
  packed : ∃ free, s.slots = pack s.entries free
  room : 1 ≤ s.capacity
  condition : Condition s.phase s.frozen s.distinctShapes s.entries

/-- What a frozen site dispatches through is among its entries. -/
theorem Valid.frozen_subset (hs : s.Valid) : s.frozen.getD [] ⊆ s.entries := by
  intro e he
  cases hfrozen : s.frozen with
  | none =>
    rw [hfrozen] at he
    cases he
  | some kept =>
    rw [hfrozen] at he
    exact (hs.condition.in_phase.2.2.2.2 kept hfrozen).2 he

theorem entries_of_slots {es : List (Entry β)} {free : Nat} (hs : s.slots = pack es free) :
    s.entries = es := by
  rw [entries, hs, filterMap_pack]

/-- A site whose slots hold given entries is valid if these fit its phase. -/
theorem Valid.of_slots {es : List (Entry β)} {free : Nat} (hs : s.slots = pack es free)
    (hroom : 1 ≤ es.length + free) (hc : Condition s.phase s.frozen s.distinctShapes es) :
    s.Valid where
  packed := ⟨free, by rw [entries_of_slots hs, hs]⟩
  room := by simpa [capacity, hs] using hroom
  condition := by rwa [entries_of_slots hs]

/-- Being valid depends on the slots, the phase, the frozen entries and the shapes met only. -/
theorem Valid.of_eq {s' : Site β} (hs : s.Valid) (hslots : s'.slots = s.slots)
    (hphase : s'.phase = s.phase) (hfrozen : s'.frozen = s.frozen)
    (hmet : s'.distinctShapes = s.distinctShapes) : s'.Valid where
  packed := by simpa [entries, hslots] using hs.packed
  room := by simpa [capacity, hslots] using hs.room
  condition := by simpa [entries, hslots, hphase, hfrozen, hmet] using hs.condition

/-! ## Parts of a call -/

theorem slots_empty (room : Nat) : fill room ([] : List (Entry β)) = pack [] room := by
  simp [fill_eq_pack]

theorem valid_create (id : Nat) (access : Access) (name : String) (capacity : Nat) :
    (create id access name capacity : Site β).Valid :=
  .of_slots (slots_empty _) (by simp only [List.length_nil]; omega) .cold

theorem Valid.reset (hs : s.Valid) : s.reset.Valid :=
  .of_slots (slots_empty _) (by simpa using hs.room) .cold

theorem Valid.giveUp (hs : s.Valid) : s.giveUp.Valid :=
  .of_slots (slots_empty _) (by simpa using hs.room) .megamorphic

/-- Changing the entry of a shape, in the slots and in what is frozen. -/
theorem Valid.updateEntry {s' : Site β} (hs : s.Valid) {f : Entry β → Entry β}
    (hf : ∀ e, e.shape = shape → (f e).shape = shape)
    (hslots : s'.slots = Site.updateEntry shape f s.slots) (hphase : s'.phase = s.phase)
    (hfrozen : s'.frozen = s.frozen.map (List.map fun e => if e.shape = shape then f e else e))
    (hmet : s'.distinctShapes = s.distinctShapes) : s'.Valid := by
  -- slots stay packed, as entries change in place
  obtain ⟨free, hpacked⟩ := hs.packed
  have hroom := hs.room
  have hslots' :
      s'.slots = pack (s.entries.map fun e => if e.shape = shape then f e else e) free := by
    rw [hslots, hpacked, updateEntry_pack, onEntry_eq_map hs.condition.distinct]
  refine .of_slots hslots' ?_ ?_
  · rwa [List.length_map, ← length_pack, ← hpacked]
  · rw [hphase, hfrozen, hmet]
    refine hs.condition.map fun e => ?_
    split
    · next he => rw [hf e he, he]
    · rfl

theorem Valid.recordHit (hs : s.Valid) : (s.recordHit shape).Valid :=
  hs.updateEntry (f := (·.hit s.calls)) (fun _ he => he) rfl rfl rfl rfl

theorem Valid.moveToFront (hs : s.Valid) :
    { s with slots := Site.moveToFront shape s.slots }.Valid := by
  obtain ⟨free, hslots⟩ := hs.packed
  have hperm : (toFront shape s.entries).Perm s.entries := toFront_perm
  have hroom := hs.room
  have hslots' : Site.moveToFront shape s.slots = pack (toFront shape s.entries) free := by
    conv_lhs => rw [hslots, moveToFront_pack]
  refine .of_slots hslots' ?_ (hs.condition.perm hperm)
  rwa [hperm.length_eq, ← length_pack, ← hslots]

/-- Freezing needs entries that are kept: it happens to monomorphic and polymorphic sites. -/
theorem Valid.freeze (hs : s.Valid) (hphase : s.phase.isAdaptive) : (s.freeze r).Valid := by
  unfold Site.freeze
  split
  · exact hs
  · next hvalid =>
    obtain ⟨free, hslots⟩ := hs.packed
    refine .of_slots hslots (by simpa [capacity, hslots] using hs.room) ?_
    exact .frozen (hs.condition.met_pos hphase) hvalid (List.filter_subset_self _)
      hs.condition.distinct

theorem follow_of_not_isAdaptive (hphase : ¬ s.phase.isAdaptive) :
    s.follow r (p.verdict s.evidence) = s := by
  have hkeep : p.verdict s.evidence = .keep := Policy.verdict_of_not_isAdaptive hphase
  rw [hkeep, follow]

theorem Valid.follow (hs : s.Valid) : (s.follow r (p.verdict s.evidence)).Valid := by
  by_cases hphase : s.phase.isAdaptive
  · unfold Site.follow
    split
    · exact hs
    · exact hs.freeze hphase
    · exact hs.giveUp
  · rwa [follow_of_not_isAdaptive hphase]

theorem entryFor?_eq_none : s.entryFor? shape = none ↔ shape ∉ s.entries.map (·.shape) := by
  simp [entryFor?]

/-- Thawing keeps the entry to be bound anew, or all of them. -/
theorem Valid.thaw (hs : s.Valid) (hphase : s.phase = .frozen) :
    (s.thaw shape).Valid ∧ (s.thaw shape).phase.isAdaptive := by
  obtain ⟨free, hslots⟩ := hs.packed
  have hroom := hs.room
  have hc := hs.condition
  rw [hphase] at hc
  generalize hfrozen : s.frozen = frozen at hc
  cases hc with
  | frozen hmet hkept hsub hdistinct =>
  rename_i kept
  -- the stale entry is bound anew and the others go, or the shape is new and all entries stay
  by_cases hbound : ∃ e ∈ kept, e.shape = shape
  · have hentry : s.entryFor? shape ≠ none := by
      rw [Ne, entryFor?_eq_none, not_not]
      obtain ⟨e, he, rfl⟩ := hbound
      exact List.mem_map_of_mem (hsub he)
    obtain ⟨e, he⟩ := Option.ne_none_iff_exists'.mp hentry
    have hthaw : s.thaw shape = { s with
        frozen := none, thaws := s.thaws + 1, lastNewShapeAt := s.calls
        slots := fill s.capacity [e], phase := .monomorphic } := by
      simp [Site.thaw, hfrozen, hbound, he]
    rw [hthaw]
    refine ⟨.of_slots fill_eq_pack ?_ ?_, rfl⟩
    · simp
      omega
    · obtain ⟨n, hn⟩ := Nat.exists_eq_add_of_le' hroom
      simpa [hn] using Condition.monomorphic hmet
  · have hthaw : s.thaw shape = { s with
        frozen := none, thaws := s.thaws + 1, lastNewShapeAt := s.calls
        phase := .polymorphic } := by
      simp [Site.thaw, hfrozen, hbound]
    rw [hthaw]
    refine ⟨.of_slots hslots (by simpa [capacity, hslots] using hroom) ?_, rfl⟩
    exact .polymorphic hmet (fun hnil => hkept (List.subset_nil.mp (hnil ▸ hsub))) hdistinct

theorem fill_room (hroom : 1 ≤ room) : ∃ n, room = n + 1 ∧ ∀ l : List (Entry β),
    fill room (e :: l) = pack (e :: l.take n) (n - l.length) := by
  obtain ⟨n, rfl⟩ := Nat.exists_eq_add_of_le' hroom
  exact ⟨n, rfl, fun l => by rw [fill_cons_succ, fill_eq_pack, pack_cons]⟩

/-- A new entry in front, followed by some of those of before. -/
theorem valid_of_learn {s' : Site β} {l : List (Entry β)} (hs : s.Valid)
    (hphase : s.phase = .cold ∨ s.phase.isAdaptive) (hnew : s.entryFor? e.shape = none)
    (hl : l.Sublist s.entries) (hslots : s'.slots = fill s.capacity (e :: l))
    (hafter : s'.phase = { s with distinctShapes := s.distinctShapes + 1 }.phaseAfterNewShape)
    (hfrozen : s'.frozen = s.frozen) (hmet : s'.distinctShapes = s.distinctShapes + 1) :
    s'.Valid ∧ s'.phase.isAdaptive ∧ (s.phase = .polymorphic → s'.phase = .polymorphic) := by
  obtain ⟨n, hn, hfill⟩ := fill_room (e := e) hs.room
  -- what is installed takes at most what room is left, and its shape is new among them
  have hothers : (l.take n).Sublist s.entries := (List.take_sublist _ _).trans hl
  have hdistinct : ((e :: l.take n).map (·.shape)).Nodup := by
    refine List.nodup_cons.mpr ⟨fun hmem => ?_, (hothers.map _).nodup hs.condition.distinct⟩
    exact entryFor?_eq_none.mp hnew ((hothers.map _).subset hmem)
  suffices hc : Condition s'.phase s'.frozen s'.distinctShapes (e :: l.take n) ∧
      s'.phase.isAdaptive ∧ (s.phase = .polymorphic → s'.phase = .polymorphic) by
    exact ⟨.of_slots (hslots.trans (hfill l)) (by simp; omega) hc.1, hc.2⟩
  -- how the phase moves on depends on the shapes met, not on the entries
  have hc := hs.condition
  rw [hafter, hfrozen, hmet, phaseAfterNewShape]
  generalize s.phase = phase, s.frozen = frozen, s.distinctShapes = met,
    hes : s.entries = es at hc hphase hothers
  cases hc with
  | cold =>
    rw [List.eq_nil_of_sublist_nil hothers]
    exact ⟨.monomorphic (by omega), rfl, nofun⟩
  | monomorphic hmet =>
    rw [if_pos (show 2 ≤ met + 1 by omega)]
    exact ⟨.polymorphic (by omega) (by simp) hdistinct, rfl, nofun⟩
  | polymorphic => exact ⟨.polymorphic (by omega) (by simp) hdistinct, rfl, fun _ => rfl⟩
  | megamorphic | frozen => rcases hphase with hphase | hphase <;> cases hphase

theorem Valid.learn (hs : s.Valid) (hphase : s.phase = .cold ∨ s.phase.isAdaptive)
    (hnew : s.entryFor? e.shape = none) : (s.learn r e).Valid ∧ (s.learn r e).phase.isAdaptive ∧
      (s.phase = .polymorphic → (s.learn r e).phase = .polymorphic) := by
  rcases learn_eq (s := s) (r := r) (e := e) with heq | heq <;> rw [heq]
  · exact valid_of_learn hs hphase hnew (List.eraseIdx_sublist _ _) rfl rfl rfl rfl
  · exact valid_of_learn hs hphase hnew (List.Sublist.refl _) rfl rfl rfl rfl

/-- An entry is kept in the place of the one for its shape or as a new one. -/
theorem Valid.keep (hs : s.Valid) (hphase : s.phase = .cold ∨ s.phase.isAdaptive) :
    (s.keep r e).Valid ∧ (s.keep r e).phase.isAdaptive ∧
      (s.phase = .polymorphic → (s.keep r e).phase = .polymorphic) := by
  unfold Site.keep
  split
  · next old hold =>
    have hnone := hs.condition.frozen_eq_none hphase
    refine ⟨hs.updateEntry (fun _ _ => rfl) rfl rfl (by simp [hnone]) rfl,
      hphase.resolve_left fun hcold => ?_, fun h => h⟩
    have hempty := hs.condition.in_phase.1 (.inl hcold)
    simp [entryFor?, hempty] at hold
  · next hnew => exact hs.learn hphase hnew

/-! ## Calls -/

theorem phase_freeze : (s.freeze r).phase = s.phase ∨ (s.freeze r).phase = .frozen := by
  unfold Site.freeze
  split
  · exact .inl rfl
  · exact .inr rfl

theorem phase_follow {v : Verdict} : (s.follow r v).phase = s.phase ∨
    (s.follow r v).phase = .frozen ∨ (s.follow r v).phase = .megamorphic := by
  cases v with
  | keep => exact .inl rfl
  | freeze => exact phase_freeze.imp_right .inl
  | giveUp => exact .inr (.inr rfl)

theorem Valid.ask (hs : s.Valid) : s.ask.Valid := hs.of_eq rfl rfl rfl rfl

theorem Valid.absorb (hs : s.Valid) (hphase : s.phase = .cold ∨ s.phase.isAdaptive)
    (found : Resolution β) : (s.absorb p r shape found).Valid ∧
      (s.absorb p r shape found).phase.Follows s.phase ∧
      (s.absorb p r shape found).phase ≠ .cold := by
  obtain ⟨hkeep, hadaptive, hpoly⟩ :=
    hs.keep (r := r) (e := ⟨shape, found.target, found.guard, 0, s.calls⟩) hphase
  have hphases := phase_follow (r := r)
    (s := s.keep r ⟨shape, found.target, found.guard, 0, s.calls⟩)
    (v := p.verdict (s.keep r ⟨shape, found.target, found.guard, 0, s.calls⟩).evidence)
  -- the first shape was counted, so the site is not cold any more
  have hcold : (s.absorb p r shape found).phase ≠ .cold := by
    intro hcold
    rcases hphases with h | h | h <;> rw [Site.absorb, h] at hcold
    · rw [hcold] at hadaptive
      cases hadaptive
    · cases hcold
    · cases hcold
  refine ⟨hkeep.follow, ⟨fun hmega => ?_, fun h => absurd h hcold, fun h hmono => ?_⟩, hcold⟩
  · rw [hmega] at hphase
    rcases hphase with hphase | hphase <;> cases hphase
  -- polymorphic before, it is polymorphic, frozen or megamorphic now
  · rcases hphases with h' | h' | h' <;> rw [Site.absorb, h'] at hmono
    · rw [hpoly h] at hmono
      cases hmono
    · cases hmono
    · cases hmono

/-- A miss of a site that is not frozen or megamorphic. -/
theorem Valid.miss (hs : s.Valid) (hphase : s.phase = .cold ∨ s.phase.isAdaptive) :
    (s.miss p q shape).2.1.Valid ∧ (s.miss p q shape).2.1.phase.Follows s.phase := by
  rcases hq : q.resolve s.access shape.receiver s.name shape.args with ⟨err | found, q'⟩
  · rw [miss_of_error hq]
    exact ⟨hs.ask, Phase.follows_refl _⟩
  · rw [miss_of_ok hq]
    obtain ⟨hvalid, hfollows, -⟩ := hs.ask.absorb hphase found
    exact ⟨hvalid, hfollows⟩

theorem Valid.count (hs : s.Valid) : s.count.Valid := hs.of_eq rfl rfl rfl rfl

theorem Valid.promote (hs : s.Valid) : (s.promote shape).Valid :=
  hs.recordHit.moveToFront

theorem Valid.serveFrozen (hs : s.Valid) (hphase : s.phase = .frozen) :
    (s.serveFrozen p q shape).2.1.Valid ∧
      (s.serveFrozen p q shape).2.1.phase.Follows s.phase := by
  unfold Site.serveFrozen
  split
  · exact ⟨hs.recordHit, Phase.follows_refl _⟩
  · -- from `frozen`, a call may lead to any phase but `cold`
    have hthaw : (s.thaw shape).Valid ∧ (s.thaw shape).phase.isAdaptive := hs.thaw hphase
    have hafter := hthaw.2
    obtain ⟨hvalid, -, hcold, -⟩ := hthaw.1.miss (.inr hafter)
    rw [hphase]
    refine ⟨hvalid, nofun, fun h => ?_, nofun⟩
    rw [hcold h] at hafter
    cases hafter

theorem Valid.serveAdaptive (hs : s.Valid) (hphase : s.phase.isAdaptive) :
    (s.serveAdaptive p q shape).2.1.Valid ∧
      (s.serveAdaptive p q shape).2.1.phase.Follows s.phase := by
  unfold Site.serveAdaptive
  split
  -- a hit in the slots can at most freeze the site
  · unfold considerFreezing
    split
    · refine ⟨hs.promote.freeze hphase, ?_⟩
      rcases phase_freeze (s := s.promote shape) (r := q.registry) with h | h
      · exact h ▸ Phase.follows_refl _
      · refine ⟨fun hmega => ?_, fun hcold => ?_, fun _ => ?_⟩
        · rw [hmega] at hphase
          cases hphase
        · cases h.symm.trans hcold
        · simp [h]
    · exact ⟨hs.promote, Phase.follows_refl _⟩
  · exact hs.miss (.inr hphase)

/-- Calls keep sites valid, whatever their shapes. -/
theorem Valid.dispatchShape (hs : s.Valid) : (s.dispatchShape p q shape).2.1.Valid ∧
    (s.dispatchShape p q shape).2.1.phase.Follows s.phase := by
  rw [dispatchShape_eq]
  split
  · next hphase => exact hs.count.miss (.inl hphase)
  · rw [bypass_eq]
    exact ⟨hs.count.ask, Phase.follows_refl _⟩
  · next hphase => exact hs.count.serveFrozen hphase
  · next hphase => exact hs.count.serveAdaptive (hphase ▸ rfl : s.phase.isAdaptive = true)
  · next hphase => exact hs.count.serveAdaptive (hphase ▸ rfl : s.phase.isAdaptive = true)

end Site

/-- What a program can see of the slots of a site in each phase. -/
structure Site.Consistent {β : Type} (s : Site β) : Prop where
  /-- The entries are in the first slots, and the others are free. -/
  slots : ∃ free, s.slots = s.entries.map some ++ List.replicate free none
  room : s.entries.length ≤ s.capacity
  distinct : (s.entries.map (·.shape)).Nodup
  empty : s.phase = .cold ∨ s.phase = .megamorphic → s.entries = []
  single : s.phase = .monomorphic → s.entries.length = 1
  several : s.phase = .polymorphic ∨ s.phase = .frozen → 1 ≤ s.entries.length
  frozen_iff : s.frozen.isSome ↔ s.phase = .frozen
  /-- A frozen site dispatches through some of the entries in the slots, at least one. -/
  frozen_entries : ∀ es, s.frozen = some es → es ≠ [] ∧ ∀ e ∈ es, e ∈ s.entries

theorem Site.Valid.consistent {β : Type} {s : Site β} (hs : s.Valid) : s.Consistent := by
  obtain ⟨free, hslots⟩ := hs.packed
  obtain ⟨hempty, hsingle, hseveral, hfrozen, hkept⟩ := hs.condition.in_phase
  refine ⟨⟨free, hslots⟩, by simp [capacity, hslots], hs.condition.distinct, hempty, hsingle, ?_,
    hfrozen, hkept⟩
  exact fun h => List.length_pos_iff.mpr (hseveral h)

end LateBinding
