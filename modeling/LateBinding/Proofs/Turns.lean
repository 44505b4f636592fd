import LateBinding.Proofs.Absorption
import LateBinding.Proofs.Clock
import LateBinding.Proofs.Serving

/-!
# Calls while all entries are valid

As long as no version changes under the entries of a call site, all of them are valid, and a call
does one of few things to the site (`Site.Turn`). The states it can lead to are written out here
field by field, with nothing left of the registry, of thawing in two ways or of the search for an
entry that is not valid; `Site.turn_dispatchShape` shows that calls lead to these states.
-/

namespace LateBinding

/-! ## Valid entries -/

/-- A guard stays valid when cells come into being. -/
theorem Guard.isCurrent_materializeAll {β : Type} {r : Registry β} {g : Guard}
    (h : g.isCurrent r) (cs : List ClassRef) : g.isCurrent (r.materializeAll cs) := by
  rw [Guard.isCurrent_iff] at h ⊢
  exact ⟨Registry.version?_materializeAll h.1 cs,
    fun obj v hown => Registry.version?_materializeAll (h.2 obj v hown) cs⟩

namespace Site

variable {β : Type} {s s' : Site β} {shape : Shape} {found : Resolution β} {e : Entry β}
variable {p : Policy} {r : Registry β} {q q' : Resolver β} {es : List (Entry β)}

/-- All entries of the site are valid. -/
def Current (s : Site β) (r : Registry β) : Prop := ∀ e ∈ s.entries, e.isCurrent r

theorem Current.materializeAll (h : s.Current r) (cs : List ClassRef) :
    s.Current (r.materializeAll cs) :=
  fun e he => Guard.isCurrent_materializeAll (h e he) cs

theorem current_of_empty (h : s.entries = []) : s.Current r := by
  intro e he
  rw [h] at he
  cases he

/-- If all entries are valid, the oldest makes room. -/
theorem victim_of_current (h : s.Current r) : victim r s.entries = oldest s.entries := by
  have hnone : s.entries.findIdx? (fun e => !e.isCurrent r) = none :=
    List.findIdx?_eq_none_iff.mpr fun e he => by simp [h e he]
  rw [victim, hnone]

/-! ## What comes of a call -/

/-- The site is frozen with all its entries. -/
def frosted (s : Site β) : Site β :=
  { s with frozen := some s.entries, freezes := s.freezes + 1, phase := .frozen }

/-- What the policy makes of a site whose entries are valid. -/
def heed (s : Site β) : Verdict → Site β
  | .keep => s
  | .freeze => s.frosted
  | .giveUp => s.giveUp

/-- The site after a call that could not be resolved. If it was frozen, it is not any more. -/
def refused (s : Site β) : Site β :=
  { s with
    phase := if s.phase = .frozen then .polymorphic else s.phase
    frozen := none
    calls := s.calls + 1
    misses := s.misses + 1
    resolutions := s.resolutions + 1
    lastNewShapeAt := if s.phase = .frozen then s.calls + 1 else s.lastNewShapeAt
    thaws := if s.phase = .frozen then s.thaws + 1 else s.thaws }

/-- The entries that stay when there is a new one: all, or all but the oldest. -/
def spared (s : Site β) : List (Entry β) :=
  if s.capacity ≤ s.entries.length then s.entries.eraseIdx (oldest s.entries) else s.entries

/-- The site after a call of a shape that it had no entry for, before the policy is asked. -/
def learnt (s : Site β) (shape : Shape) (found : Resolution β) : Site β :=
  { s.refused with
    phase := if s.phase = .cold then .monomorphic else .polymorphic
    slots := fill s.capacity (⟨shape, found.target, found.guard, 0, s.calls + 1⟩ :: s.spared)
    distinctShapes := s.distinctShapes + 1
    missPenalty := if s.capacity ≤ s.entries.length then s.missPenalty + 1 else s.missPenalty
    lastNewShapeAt := s.calls + 1 }

/-- What a call comes to at a site whose entries are valid and which did not give up. -/
inductive Turn (s : Site β) (p : Policy) (q : Resolver β) (shape : Shape) :
    Except DispatchError (Target β) × Site β × Resolver β → Prop
  /-- A frozen site serves the call by an entry, which stays where it is. -/
  | held {t : Target β} (hphase : s.phase = .frozen) (hmem : shape ∈ s.shapes) :
    Turn s p q shape (.ok t, s.count.recordHit shape, q)
  /-- Any other site moves the entry to the front, and may freeze. -/
  | promoted {t : Target β} (hphase : s.phase.isAdaptive) (hmem : shape ∈ s.shapes) :
    Turn s p q shape (.ok t,
      if p.verdict (s.count.promote shape).evidence = .freeze then (s.count.promote shape).frosted
      else s.count.promote shape, q)
  | refused {err : DispatchError} {q' : Resolver β} (hnew : shape ∉ s.shapes)
    (hq : q.resolve s.access shape.receiver s.name shape.args = (.error err, q')) :
    Turn s p q shape (.error err, s.refused, q')
  | learned {found : Resolution β} {q' : Resolver β} (hnew : shape ∉ s.shapes)
    (hq : q.resolve s.access shape.receiver s.name shape.args = (.ok found, q')) :
    Turn s p q shape (.ok found.target,
      (s.learnt shape found).heed (p.verdict (s.learnt shape found).evidence), q')

/-! ## Entries after a call -/

theorem entries_recordHit (hs : s.Valid) :
    (s.recordHit shape).entries = s.entries.map (Entry.hitBy shape s.calls) := by
  obtain ⟨free, hpacked⟩ := hs.packed
  have hslots : (s.recordHit shape).slots =
      pack (s.entries.map (Entry.hitBy shape s.calls)) free := by
    show updateEntry shape (·.hit s.calls) s.slots = _
    conv_lhs => rw [hpacked, updateEntry_pack, onEntry_eq_map hs.condition.distinct]
    rfl
  exact entries_of_slots hslots

theorem entries_promote (hs : s.Valid) : (s.promote shape).entries =
    toFront shape (s.entries.map (Entry.hitBy shape s.calls)) := by
  have hhit : (s.recordHit shape).Valid := hs.recordHit
  obtain ⟨free, hpacked⟩ := hhit.packed
  have hslots :
      (s.promote shape).slots = pack (toFront shape (s.recordHit shape).entries) free := by
    show moveToFront shape (s.recordHit shape).slots = _
    conv_lhs => rw [hpacked, moveToFront_pack]
  rw [entries_of_slots hslots, entries_recordHit hs]

theorem isCurrent_hitBy {n : Nat} : (Entry.hitBy shape n e).isCurrent r = e.isCurrent r := by
  unfold Entry.hitBy
  split <;> rfl

theorem Current.recordHit (h : s.Current r) (hs : s.Valid) : (s.recordHit shape).Current r := by
  intro e he
  rw [entries_recordHit hs] at he
  obtain ⟨old, hold, rfl⟩ := List.mem_map.mp he
  rw [isCurrent_hitBy]
  exact h old hold

theorem Current.promote (h : s.Current r) (hs : s.Valid) : (s.promote shape).Current r := by
  intro e he
  rw [entries_promote hs, toFront_perm.mem_iff, ← entries_recordHit hs] at he
  exact h.recordHit hs e he

theorem oldest_lt (hne : es ≠ []) : oldest es < es.length := by
  induction es with
  | nil => exact absurd rfl hne
  | cons e rest ih =>
    cases rest with
    | nil => exact Nat.zero_lt_one
    | cons o rest =>
      have hlt := ih (List.cons_ne_nil _ _)
      simp only [oldest, List.length_cons] at hlt ⊢
      split
      · split <;> omega
      · omega

theorem Valid.length_le (hs : s.Valid) : s.entries.length ≤ s.capacity := by
  obtain ⟨free, hslots⟩ := hs.packed
  rw [capacity, hslots, length_pack]
  exact Nat.le_add_right _ _

/-- There is room for one more than is spared. -/
theorem length_spared (hs : s.Valid) : s.spared.length < s.capacity ∧
    s.spared.length = if s.capacity ≤ s.entries.length then s.entries.length - 1
      else s.entries.length := by
  have hle := hs.length_le
  have hroom := hs.room
  unfold spared
  split
  · next hfull =>
    have hne : s.entries ≠ [] := List.ne_nil_of_length_pos (by omega)
    rw [List.length_eraseIdx_of_lt (oldest_lt hne)]
    omega
  · omega

theorem entries_learnt (hs : s.Valid) : (s.learnt shape found).entries =
    ⟨shape, found.target, found.guard, 0, s.calls + 1⟩ :: s.spared := by
  have hslots : (s.learnt shape found).slots = _ := fill_eq_pack
  rw [entries_of_slots hslots, List.take_of_length_le (length_spared hs).1]

theorem capacity_learnt : (s.learnt shape found).capacity = s.capacity := length_fill

theorem Current.learnt (h : s.Current r) (hs : s.Valid) (hfound : found.guard.isCurrent r) :
    (s.learnt shape found).Current r := by
  intro e he
  rw [entries_learnt hs] at he
  rcases List.mem_cons.mp he with rfl | he
  · exact hfound
  · refine h e ?_
    unfold spared at he
    split at he
    · exact List.mem_of_mem_eraseIdx he
    · exact he

/-! ## What is counted -/

section

variable (s : Site β) (v : Verdict)

@[simp] theorem calls_heed : (s.heed v).calls = s.calls := by cases v <;> rfl

@[simp] theorem hits_heed : (s.heed v).hits = s.hits := by cases v <;> rfl

@[simp] theorem misses_heed : (s.heed v).misses = s.misses := by cases v <;> rfl

@[simp] theorem resolutions_heed : (s.heed v).resolutions = s.resolutions := by cases v <;> rfl

@[simp] theorem distinctShapes_heed : (s.heed v).distinctShapes = s.distinctShapes := by
  cases v <;> rfl

@[simp] theorem lastNewShapeAt_heed : (s.heed v).lastNewShapeAt = s.lastNewShapeAt := by
  cases v <;> rfl

@[simp] theorem missPenalty_heed : (s.heed v).missPenalty = s.missPenalty := by cases v <;> rfl

@[simp] theorem capacity_heed : (s.heed v).capacity = s.capacity := by
  cases v with
  | keep | freeze => rfl
  | giveUp => exact length_fill

end

theorem entries_heed {v : Verdict} (hphase : (s.heed v).phase ≠ .megamorphic) :
    (s.heed v).entries = s.entries := by
  cases v with
  | keep | freeze => rfl
  | giveUp => exact absurd rfl hphase

/-- What a hit leaves of the counters and the room of a site. -/
structure Reused (s' s : Site β) : Prop where
  calls : s'.calls = s.calls + 1
  hits : s'.hits = s.hits + 1
  misses : s'.misses = s.misses
  resolutions : s'.resolutions = s.resolutions
  distinctShapes : s'.distinctShapes = s.distinctShapes
  lastNewShapeAt : s'.lastNewShapeAt = s.lastNewShapeAt
  missPenalty : s'.missPenalty = s.missPenalty
  capacity : s'.capacity = s.capacity
  entries : s'.entries.length = s.entries.length

theorem reused_recordHit (hs : s.Valid) : (s.count.recordHit shape).Reused s where
  calls := rfl
  hits := rfl
  misses := rfl
  resolutions := rfl
  distinctShapes := rfl
  lastNewShapeAt := rfl
  missPenalty := rfl
  capacity := (alike_recordHit hs.count).capacity
  entries := by
    rw [entries_recordHit hs.count, List.length_map]
    rfl

theorem reused_promote (shape : Shape) (hs : s.Valid) : (s.count.promote shape).Reused s where
  calls := rfl
  hits := rfl
  misses := rfl
  resolutions := rfl
  distinctShapes := rfl
  lastNewShapeAt := rfl
  missPenalty := rfl
  capacity := (alike_promote hs.count).capacity
  entries := by
    rw [entries_promote hs.count, toFront_perm.length_eq, List.length_map]
    rfl

theorem Reused.frosted (h : s'.Reused s) : s'.frosted.Reused s :=
  ⟨h.calls, h.hits, h.misses, h.resolutions, h.distinctShapes, h.lastNewShapeAt, h.missPenalty,
    h.capacity, h.entries⟩

/-- What an answer that was no hit leaves of the counters of a site. -/
structure Gained (s' s : Site β) : Prop where
  calls : s'.calls = s.calls + 1
  hits : s'.hits = s.hits
  misses : s'.misses = s.misses + 1
  resolutions : s'.resolutions = s.resolutions + 1
  distinctShapes : s'.distinctShapes = s.distinctShapes + 1
  lastNewShapeAt : s'.lastNewShapeAt = s.calls + 1

/-- A call of a shape without an entry comes to what a resolution comes to. -/
theorem Turn.asked {out : Except DispatchError (Target β) × Site β × Resolver β}
    (h : s.Turn p q shape out) (hnew : shape ∉ s.shapes) :
    out.1 = (q.resolve s.access shape.receiver s.name shape.args).1.map (·.target) ∧
      out.2.2 = (q.resolve s.access shape.receiver s.name shape.args).2 := by
  cases h with
  | held _ hmem | promoted _ hmem => exact absurd hmem hnew
  | refused _ hq | learned _ hq => exact ⟨by rw [hq]; rfl, by rw [hq]⟩

/-- If it is answered, its shape is counted. -/
theorem Turn.gained {out : Except DispatchError (Target β) × Site β × Resolver β}
    (h : s.Turn p q shape out) (hnew : shape ∉ s.shapes) (hok : out.1.isOk) :
    ∃ found, out.2.1 = (s.learnt shape found).heed (p.verdict (s.learnt shape found).evidence) ∧
      out.2.1.Gained s := by
  cases h with
  | held _ hmem | promoted _ hmem => exact absurd hmem hnew
  | refused => cases hok
  | @learned found =>
    exact ⟨found, rfl, calls_heed _ _, hits_heed _ _, misses_heed _ _, resolutions_heed _ _,
      distinctShapes_heed _ _, lastNewShapeAt_heed _ _⟩

section

variable {out : Except DispatchError (Target β) × Site β × Resolver β}
variable (hs : s.Valid) (h : s.Turn p q shape out)
include hs h

/-- A call of a shape that the site has an entry for is a hit. -/
theorem Turn.reused (hmem : shape ∈ s.shapes) :
    out.1.isOk ∧ out.2.2 = q ∧ out.2.1.Reused s := by
  cases h with
  | held => exact ⟨rfl, rfl, reused_recordHit hs⟩
  | promoted =>
    refine ⟨rfl, rfl, ?_⟩
    dsimp only
    split
    · exact (reused_promote shape hs).frosted
    · exact reused_promote shape hs
  | refused hnew | learned hnew => exact absurd hmem hnew

theorem Turn.capacity : out.2.1.capacity = s.capacity := by
  by_cases hmem : shape ∈ s.shapes
  · exact (h.reused hs hmem).2.2.capacity
  · cases h with
    | held _ hold | promoted _ hold => exact absurd hold hmem
    | refused => rfl
    | learned => rw [capacity_heed, capacity_learnt]

/-- Exactly the calls of shapes with an entry are hits. -/
theorem Turn.hits : out.2.1.hits = s.hits + if shape ∈ s.shapes then 1 else 0 := by
  by_cases hmem : shape ∈ s.shapes
  · rw [(h.reused hs hmem).2.2.hits, if_pos hmem]
  · rw [if_neg hmem]
    cases h with
    | held _ hold | promoted _ hold => exact absurd hold hmem
    | refused => rfl
    | learned => exact hits_heed _ _

/-- As long as the site does not give up, what it learns is either kept or paid for by another
entry. -/
theorem Turn.missPenalty (hphase : out.2.1.phase ≠ .megamorphic) :
    out.2.1.missPenalty + out.2.1.entries.length = s.missPenalty + s.entries.length +
      if out.1.isOk ∧ shape ∉ s.shapes then 1 else 0 := by
  -- a shape with an entry changes neither number; a new one is kept at the cost of a free slot or
  -- of another entry
  by_cases hmem : shape ∈ s.shapes
  · rw [(h.reused hs hmem).2.2.missPenalty, (h.reused hs hmem).2.2.entries,
      if_neg fun h => h.2 hmem]
    rfl
  · cases h with
    | held _ hold | promoted _ hold => exact absurd hold hmem
    | refused =>
      rw [if_neg (by simp [Except.isOk, Except.toBool])]
      rfl
    | @learned found q' hnew hq =>
      have hone : (if (Except.ok found.target : Except DispatchError (Target β)).isOk ∧
          shape ∉ s.shapes then 1 else 0) = 1 := if_pos ⟨rfl, hnew⟩
      have hroom := hs.room
      rw [missPenalty_heed, entries_heed hphase, entries_learnt hs, List.length_cons,
        (length_spared hs).2, hone]
      -- a full site drops one entry and counts it, one with room grows
      by_cases hfull : s.capacity ≤ s.entries.length
      · simp only [learnt, if_pos hfull]
        omega
      · simp only [learnt, if_neg hfull]
        omega

end

/-! ## Calls as turns -/

theorem freeze_of_current (h : s.Current r) (hne : s.entries ≠ []) : s.freeze r = s.frosted := by
  have hall : s.entries.filter (·.isCurrent r) = s.entries :=
    List.filter_eq_self.mpr fun e he => h e he
  unfold Site.freeze
  rw [hall]
  split
  · next hnil => exact absurd hnil hne
  · rfl

theorem follow_of_current (h : s.Current r) (hne : s.entries ≠ []) (v : Verdict) :
    s.follow r v = s.heed v := by
  cases v with
  | keep | giveUp => rfl
  | freeze => exact freeze_of_current h hne

/-- That there were enough calls need not be asked apart. -/
theorem considerFreezing_of_current (h : s.Current r) (hne : s.entries ≠ []) :
    s.considerFreezing p r = if p.verdict s.evidence = .freeze then s.frosted else s := by
  have hcalls : p.verdict s.evidence = .freeze → p.optimizeThreshold < s.calls := fun hfreeze =>
    (Policy.isStable_iff.mp (Policy.verdict_eq_freeze_iff.mp hfreeze).2.2).1
  unfold considerFreezing
  rw [freeze_of_current h hne]
  by_cases hfreeze : p.verdict s.evidence = .freeze
  · simp [hfreeze, hcalls hfreeze]
  · simp [hfreeze]

theorem currentFor?_of_not_mem (hnew : shape ∉ s.shapes) : s.currentFor? r shape = none := by
  rw [currentFor?, entryFor?_eq_none.mpr hnew, Option.filter_none]

/-- The frozen entries are among those in the slots. -/
theorem not_mem_frozen (hs : s.Valid) (hnew : shape ∉ s.shapes) :
    ∀ e ∈ s.frozen.getD [], e.shape ≠ shape := by
  intro e he hshape
  cases hfrozen : s.frozen with
  | none =>
    rw [hfrozen] at he
    cases he
  | some kept =>
    rw [hfrozen] at he
    have hsub := (hs.condition.in_phase.2.2.2.2 kept hfrozen).2
    exact hnew (List.mem_map.mpr ⟨e, hsub he, hshape⟩)

theorem frozenFor?_of_not_mem (hs : s.Valid) (hnew : shape ∉ s.shapes) :
    s.frozenFor? r shape = none := by
  have hnone : (s.frozen.getD []).find? (·.shape = shape) = none :=
    List.find?_eq_none.mpr fun e he => by simpa using not_mem_frozen hs hnew e he
  rw [frozenFor?, hnone, Option.filter_none]

/-- Of a shape that is not cached, a frozen site has no entry to bind anew. -/
theorem thaw_of_not_mem (hs : s.Valid) (hnew : shape ∉ s.shapes) : s.thaw shape = { s with
    frozen := none, thaws := s.thaws + 1, lastNewShapeAt := s.calls, phase := .polymorphic } := by
  have hbound : (s.frozen.getD []).any (·.shape = shape) = false :=
    List.any_eq_false.mpr fun e he => by simpa using not_mem_frozen hs hnew e he
  simp only [Site.thaw, hbound, Bool.false_eq_true, if_false]

/-- What is learned is installed by the age of the entries, and the phase moves on. -/
theorem learn_of_current (hs : s.Valid) (h : s.Current r)
    (hphase : s.phase = .cold ∨ s.phase.isAdaptive) : s.learn r e = { s with
      phase := if s.phase = .cold then .monomorphic else .polymorphic
      slots := fill s.capacity (e :: s.spared)
      distinctShapes := s.distinctShapes + 1
      missPenalty := if s.capacity ≤ s.entries.length then s.missPenalty + 1 else s.missPenalty
      lastNewShapeAt := s.calls } := by
  -- one shape makes a site monomorphic, and every other one polymorphic, as all entries count
  have hmoved : ({ s with distinctShapes := s.distinctShapes + 1 } : Site β).phaseAfterNewShape =
      if s.phase = .cold then .monomorphic else .polymorphic := by
    unfold phaseAfterNewShape
    dsimp only
    rcases hphase with hphase | hphase
    · simp [hphase]
    · have hmet := hs.condition.met_pos hphase
      cases hp : s.phase with
      | monomorphic => simp [show 2 ≤ s.distinctShapes + 1 by omega]
      | polymorphic => simp
      | cold | megamorphic | frozen => simp [hp, Phase.isAdaptive] at hphase
  -- no entry is stale, so the one to go is the oldest
  have hvictim : victim r s.entries = oldest s.entries := victim_of_current h
  rw [← hmoved]
  unfold Site.learn Site.install spared
  dsimp only
  split
  · next hfull =>
    have hfull : s.capacity ≤ s.entries.length := hfull
    rw [if_pos hfull, if_pos hfull, ← hvictim]
    rfl
  · next hroom =>
    have hroom : ¬ s.capacity ≤ s.entries.length := hroom
    rw [if_neg hroom, if_neg hroom]
    rfl

theorem keep_of_not_mem (hnew : e.shape ∉ s.shapes) : s.keep r e = s.learn r e := by
  unfold Site.keep
  rw [entryFor?_eq_none.mpr hnew]

theorem refused_of_not_frozen (hs : s.Valid) (hphase : s.phase ≠ .frozen) :
    s.count.ask = s.refused := by
  have hnone : s.frozen = none := by
    have hiff := hs.condition.in_phase.2.2.2.1
    simpa [hphase] using hiff
  simp only [refused, if_neg hphase, count, ask]
  rw [← hnone]

theorem refused_of_frozen (hs : s.Valid) (hphase : s.phase = .frozen) (hnew : shape ∉ s.shapes) :
    (s.count.thaw shape).ask = s.refused := by
  rw [thaw_of_not_mem (s := s.count) hs.count hnew]
  simp only [refused, if_pos hphase, count, ask]

theorem valid_refused (hs : s.Valid) (hnew : shape ∉ s.shapes) : s.refused.Valid := by
  by_cases hphase : s.phase = .frozen
  · rw [← refused_of_frozen hs hphase hnew]
    exact (Valid.thaw (s := s.count) hs.count hphase).1.ask
  · rw [← refused_of_not_frozen hs hphase]
    exact hs.count.ask

theorem phase_refused (hphase : s.phase ≠ .megamorphic) :
    (s.refused.phase = .cold ↔ s.phase = .cold) ∧
      (s.refused.phase = .cold ∨ s.refused.phase.isAdaptive) := by
  cases h : s.phase with
  | megamorphic => exact absurd h hphase
  | cold | monomorphic | polymorphic | frozen => simp [refused, h, Phase.isAdaptive]

/-- What is found for a shape without an entry is learned. -/
theorem keep_refused (hs : s.Valid) (hcurrent : s.Current r) (hphase : s.phase ≠ .megamorphic)
    (hnew : shape ∉ s.shapes) :
    s.refused.keep r ⟨shape, found.target, found.guard, 0, s.refused.calls⟩ =
      s.learnt shape found := by
  obtain ⟨hcold, hadaptive⟩ := phase_refused hphase
  rw [keep_of_not_mem hnew,
    learn_of_current (s := s.refused) (valid_refused hs hnew) hcurrent hadaptive]
  simp only [hcold]
  rfl

section

variable (hs : s.Valid) (hcurrent : s.Current q.registry) (hphase : s.phase ≠ .megamorphic)
  (hguard : ∀ found q', q.resolve s.access shape.receiver s.name shape.args = (.ok found, q') →
    found.guard.isCurrent q'.registry)
include hs hcurrent hphase hguard

/-- A miss of a shape without an entry, once the call is counted and the site not frozen. -/
theorem turn_of_asked (hnew : shape ∉ s.shapes) {s₁ : Site β} (hasked : s₁.ask = s.refused) :
    s.Turn p q shape (s₁.miss p q shape) := by
  -- the question is the one that the site itself would put, whatever was counted before it
  have haccess : s₁.access = s.access :=
    (congrArg Site.access hasked : s₁.ask.access = s.refused.access)
  have hname : s₁.name = s.name := (congrArg Site.name hasked : s₁.ask.name = s.refused.name)
  rcases hq : q.resolve s.access shape.receiver s.name shape.args with ⟨err | found, q'⟩
  · rw [miss_of_error (by rwa [haccess, hname]), hasked]
    exact .refused hnew hq
  · -- the cells that the resolution brought into being leave the entries valid
    obtain ⟨cs, hcs⟩ := Engine.resolve_registry q s.access shape.receiver s.name shape.args
    have hafter : s.Current q'.registry := by
      rw [hq] at hcs
      exact hcs ▸ hcurrent.materializeAll cs
    have hne : (s.learnt shape found).entries ≠ [] := by
      rw [entries_learnt hs]
      exact List.cons_ne_nil _ _
    rw [miss_of_ok (by rwa [haccess, hname]), hasked]
    simp only [absorb]
    rw [keep_refused hs hafter hphase hnew,
      follow_of_current (hafter.learnt hs (hguard found q' hq)) hne]
    exact .learned hnew hq

/-- A call at a site whose entries are valid is a turn. -/
theorem turn_dispatchShape (hsettled : s.Settled q.registry) :
    s.Turn p q shape (s.dispatchShape p q shape) := by
  rw [dispatchShape_eq]
  -- a shape with an entry is served from where its phase looks, one without is asked for
  by_cases hmem : shape ∈ s.shapes
  · obtain ⟨e, he, hshape⟩ := List.mem_map.mp hmem
    have hne : (s.count.promote shape).entries ≠ [] := by
      rw [entries_promote hs.count]
      exact fun hnil => List.ne_nil_of_mem he
        (List.map_eq_nil_iff.mp (List.perm_nil.mp (hnil ▸ toFront_perm.symm)))
    have hadaptive : s.phase.isAdaptive → s.Turn p q shape (s.count.serveAdaptive p q shape) := by
      intro hadaptive
      have hserve : s.count.currentFor? q.registry shape = some e :=
        Option.filter_eq_some_iff.mpr
          ⟨find?_of_mem hs (List.Subset.refl _) he hshape, hcurrent e he⟩
      simp only [serveAdaptive, hserve]
      rw [considerFreezing_of_current (Current.promote (s := s.count) hcurrent hs.count) hne]
      exact .promoted hadaptive hmem
    -- a site without entries does not have the shape
    split
    · next hcold =>
      rw [hs.condition.in_phase.1 (.inl hcold)] at he
      cases he
    · next hmega => exact absurd hmega hphase
    · next hfrozen =>
      have hserve : s.count.frozenFor? q.registry shape = some e :=
        frozenFor?_of_mem (s := s) hs hsettled hfrozen he (hcurrent e he) hshape
      simp only [serveFrozen, hserve]
      exact .held hfrozen hmem
    · next h => exact hadaptive (h ▸ rfl)
    · next h => exact hadaptive (h ▸ rfl)
  -- thawing clears no slot, as the shape is not bound
  · have hmiss : s.phase ≠ .frozen → s.Turn p q shape (s.count.miss p q shape) := fun hne =>
      turn_of_asked hs hcurrent hphase hguard hmem (refused_of_not_frozen hs hne)
    have hadaptive : s.phase ≠ .frozen → s.Turn p q shape (s.count.serveAdaptive p q shape) := by
      intro hne
      have hnone : s.count.currentFor? q.registry shape = none := currentFor?_of_not_mem hmem
      simp only [serveAdaptive, hnone]
      exact hmiss hne
    split
    · next h => exact hmiss (by simp [h])
    · next hmega => exact absurd hmega hphase
    · next hfrozen =>
      have hnone : s.count.frozenFor? q.registry shape = none :=
        frozenFor?_of_not_mem (s := s) hs hmem
      simp only [serveFrozen, hnone]
      exact turn_of_asked hs hcurrent hphase hguard hmem (refused_of_frozen hs hfrozen hmem)
    · next h => exact hadaptive (by simp [h])
    · next h => exact hadaptive (by simp [h])

end

end Site

/-! ## Calls of an engine -/

namespace Engine

variable {β : Type} {g : Engine β} {key : SiteKey} {s : Site β} {receiver : Value}
variable {args : List Value}

/-- What was just found is valid. -/
theorem isCurrent_resolve {access : Access} {name : String} {found : Resolution β}
    (hok : (g.resolve access receiver name args).1 = .ok found) :
    found.guard.isCurrent (g.resolve access receiver name args).2.registry := by
  obtain ⟨hguard, hthere⟩ := guard_resolve hok
  rw [hguard, Guard.isCurrent_ofReceiver_iff]
  intro o ho
  obtain ⟨version, hversion⟩ := Option.isSome_iff_exists.mp (hthere o ho)
  rw [show (g.resolve access receiver name args).2.registry.version? o = some version from hversion,
    hversion]
  rfl

/-- The entries of a site stay valid when the site is called. -/
theorem current_dispatch (hg : g.Reachable) (hs : g.sites.get? key = some s)
    (hcurrent : s.Current g.registry) :
    (s.dispatch g.policy g.resolver receiver args).2.1.Current
      (s.dispatch g.policy g.resolver receiver args).2.2.registry := by
  have hserved : s.Served g.resolver (.ofCall g.registry receiver args)
      (s.dispatch g.policy g.resolver receiver args) := Site.served_dispatch
  -- all that the site recalled was valid
  have hrecalls : ∀ {shape found}, s.Recalls shape found → found.guard.isCurrent g.registry := by
    intro shape found hr
    obtain ⟨e, he, -, -, hguard⟩ := (hg.valid hs).entry_of_recalls hr
    exact hguard ▸ hcurrent e he
  intro e he
  have hrecalled : (s.dispatch g.policy g.resolver receiver args).2.1.Recalls e.shape
      ⟨e.target, e.guard⟩ := ⟨e, .inl (Site.mem_entries.mp he), rfl, rfl, rfl⟩
  generalize s.dispatch g.policy g.resolver receiver args = out at hserved hrecalled
  cases hserved with
  | hit _ _ hs' => exact hrecalls (hs'.old hrecalled)
  | asked hs' =>
    -- an old entry stays valid when cells come into being, and a new one comes from the answer just
    -- now
    rcases hs'.recalls hrecalled with hold | ⟨-, hnew⟩
    · obtain ⟨cs, hcs⟩ := resolve_registry g.resolver s.access
        (Shape.ofCall g.registry receiver args).receiver s.name
        (Shape.ofCall g.registry receiver args).args
      dsimp only
      rw [hcs]
      exact Guard.isCurrent_materializeAll (hrecalls hold) cs
    · exact isCurrent_resolve (g := g) hnew

/-- A call of an engine at a site whose entries are valid is a turn. -/
theorem turn_dispatch (receiver : Value) (args : List Value) (hg : g.Reachable)
    (hs : g.sites.get? key = some s) (hcurrent : s.Current g.registry)
    (hphase : s.phase ≠ .megamorphic) :
    s.Turn g.policy g.resolver (.ofCall g.registry receiver args)
      (s.dispatch g.policy g.resolver receiver args) := by
  refine Site.turn_dispatchShape (hg.valid hs) hcurrent hphase (fun found q' hq => ?_)
    (hg.settled hs)
  have hok : (g.resolve s.access receiver s.name args).1 = .ok found := congrArg Prod.fst hq
  have hafter : (g.resolve s.access receiver s.name args).2.registry = q'.registry :=
    congrArg (·.2.registry) hq
  exact hafter ▸ isCurrent_resolve hok

end Engine

end LateBinding
