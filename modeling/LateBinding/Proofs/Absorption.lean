import LateBinding.Proofs.Recall
import Mathlib.Data.Finset.Card

/-!
# Shapes that fit

A call site that was called with no more different shapes than it has room for never evicts an
entry. But binding a stale frozen entry anew drops the others, and shapes that come back after that
are counted again. So the count of shapes is the number of different ones plus the number of such
calls, and the site gives up caching only if there were some (`Engine.History.absorbs`).

A `History` notes the calls that a site got since it was created or reset, with all kinds of other
operations in between.
-/

namespace LateBinding

/-! ## The policy -/

namespace Policy

variable {p : Policy} {e : Evidence}

theorem verdict_eq_giveUp_iff : p.verdict e = .giveUp ↔
    e.phase.isAdaptive ∧ (p.failsFromStart e ∨ p.thrashes e) := by
  unfold verdict conclude
  cases e.phase.isAdaptive <;> cases p.failsFromStart e <;> cases p.thrashes e <;>
    cases p.isStable e <;> simp

theorem verdict_eq_freeze_iff : p.verdict e = .freeze ↔
    e.phase.isAdaptive ∧ p.verdict e ≠ .giveUp ∧ p.isStable e := by
  unfold verdict conclude
  cases e.phase.isAdaptive <;> cases p.failsFromStart e <;> cases p.thrashes e <;>
    cases p.isStable e <;> simp

theorem failsFromStart_iff : p.failsFromStart e ↔ 0 < p.fallbackThreshold ∧ e.hits = 0 ∧
    max p.fallbackThreshold (e.capacity + 1) ≤ e.distinctShapes := by
  simp only [failsFromStart, mayFail, Bool.and_eq_true, decide_eq_true_eq, and_assoc]

theorem thrashes_iff : p.thrashes e ↔ e.phase = .polymorphic ∧
    Word.mulSat e.capacity p.megamorphicMultiplier < e.distinctShapes := by
  simp only [thrashes, Bool.and_eq_true, decide_eq_true_eq]

theorem isStable_iff : p.isStable e ↔ p.optimizeThreshold < e.calls ∧
    min p.stableWindow p.optimizeThreshold ≤ e.calls - e.lastNewShapeAt := by
  simp only [isStable, Bool.and_eq_true, decide_eq_true_eq]

/-- The policy gives up only on sites that counted more shapes than fit. -/
theorem capacity_lt_of_giveUp (hmultiplier : 1 ≤ p.megamorphicMultiplier)
    (hcapacity : e.capacity < Word.last) (hgiveUp : p.verdict e = .giveUp) :
    e.capacity < e.distinctShapes := by
  rcases (verdict_eq_giveUp_iff.mp hgiveUp).2 with hfails | hthrashes
  · obtain ⟨-, -, hmet⟩ := failsFromStart_iff.mp hfails
    exact (Nat.le_max_right _ _).trans hmet
  · have hle : e.capacity ≤ Word.mulSat e.capacity p.megamorphicMultiplier :=
      Nat.le_min.mpr ⟨Nat.le_mul_of_pos_right _ hmultiplier, Nat.le_of_lt hcapacity⟩
    exact Nat.lt_of_le_of_lt hle (thrashes_iff.mp hthrashes).2

end Policy

namespace Site

variable {β : Type} {s s' s'' : Site β} {e : Entry β} {shape x : Shape} {found : Resolution β}
variable {p : Policy} {r : Registry β} {q : Resolver β} {t : Target β}

/-! ## Shapes in the slots -/

/-- The shapes that the site has entries for, valid or not. -/
def shapes (s : Site β) : List Shape := s.entries.map (·.shape)

theorem length_shapes : s.shapes.length = s.entries.length := List.length_map ..

theorem entryFor?_isSome_iff : (s.entryFor? shape).isSome ↔ shape ∈ s.shapes := by
  rw [Option.isSome_iff_ne_none, Ne, entryFor?_eq_none, not_not, shapes]

/-- `s'` has the room, the counts and the shapes of `s`. -/
structure Alike (s' s : Site β) : Prop where
  capacity : s'.capacity = s.capacity
  distinctShapes : s'.distinctShapes = s.distinctShapes
  missPenalty : s'.missPenalty = s.missPenalty
  shapes : ∀ x, x ∈ s'.shapes ↔ x ∈ s.shapes

theorem Alike.trans (h' : s''.Alike s') (h : s'.Alike s) : s''.Alike s where
  capacity := h'.capacity.trans h.capacity
  distinctShapes := h'.distinctShapes.trans h.distinctShapes
  missPenalty := h'.missPenalty.trans h.missPenalty
  shapes x := (h'.shapes x).trans (h.shapes x)

theorem alike_of_slots (hslots : s'.slots = s.slots)
    (hdistinct : s'.distinctShapes = s.distinctShapes) (hpenalty : s'.missPenalty = s.missPenalty) :
    s'.Alike s :=
  ⟨by rw [capacity, hslots, capacity], hdistinct, hpenalty,
    fun x => by rw [shapes, entries, hslots, shapes, entries]⟩

/-- Entries are changed or moved, but their shapes stay. -/
theorem alike_of_pack {es : List (Entry β)} {free : Nat} (hslots : s.slots = pack s.entries free)
    (hslots' : s'.slots = pack es free) (hes : (es.map (·.shape)).Perm s.shapes)
    (hdistinct : s'.distinctShapes = s.distinctShapes) (hpenalty : s'.missPenalty = s.missPenalty) :
    s'.Alike s := by
  have hlength : es.length = s.entries.length := by
    simpa [shapes] using hes.length_eq
  refine ⟨?_, hdistinct, hpenalty, fun x => ?_⟩
  · rw [capacity, hslots', capacity, hslots, length_pack, length_pack, hlength]
  · rw [shapes, entries_of_slots hslots']
    exact hes.mem_iff

theorem alike_updateEntry (hs : s.Valid) {f : Entry β → Entry β}
    (hf : ∀ e, e.shape = shape → (f e).shape = shape)
    (hslots : s'.slots = Site.updateEntry shape f s.slots)
    (hdistinct : s'.distinctShapes = s.distinctShapes) (hpenalty : s'.missPenalty = s.missPenalty) :
    s'.Alike s := by
  -- entries change in place, so packed slots stay packed and shapes stay where they are
  obtain ⟨free, hpacked⟩ := hs.packed
  have hslots' :
      s'.slots = pack (s.entries.map fun e => if e.shape = shape then f e else e) free := by
    rw [hslots, hpacked, updateEntry_pack, onEntry_eq_map hs.condition.distinct]
  refine alike_of_pack hpacked hslots' (.of_eq ?_) hdistinct hpenalty
  rw [List.map_map]
  refine List.map_congr_left fun e _ => ?_
  by_cases he : e.shape = shape
  · simp [he, hf e he]
  · simp [he]

theorem alike_recordHit (hs : s.Valid) : (s.recordHit shape).Alike s :=
  alike_updateEntry (f := (·.hit s.calls)) hs (fun _ he => he) rfl rfl rfl

theorem alike_promote (hs : s.Valid) : (s.promote shape).Alike s := by
  have hhit : (s.recordHit shape).Valid := hs.recordHit
  obtain ⟨free, hslots⟩ := hhit.packed
  have hmoved :
      (s.promote shape).slots = pack (toFront shape (s.recordHit shape).entries) free := by
    show moveToFront shape (s.recordHit shape).slots = _
    conv_lhs => rw [hslots, moveToFront_pack]
  have hmove : (s.promote shape).Alike (s.recordHit shape) :=
    alike_of_pack hslots hmoved (toFront_perm.map _) rfl rfl
  exact hmove.trans (alike_recordHit hs)

theorem alike_freeze : (s.freeze r).Alike s := by
  unfold Site.freeze
  split <;> exact alike_of_slots rfl rfl rfl

theorem alike_considerFreezing : (s.considerFreezing p r).Alike s := by
  unfold considerFreezing
  split
  · exact alike_freeze
  · exact alike_of_slots rfl rfl rfl

/-! ## What a call does to a site with room -/

/-- The frozen site serves the shape by an entry that is not valid any more, so a call binds it
anew. -/
def rebinds (s : Site β) (r : Registry β) (shape : Shape) : Bool :=
  s.phase = .frozen && (s.frozen.getD []).any (·.shape = shape) && (s.frozenFor? r shape).isNone

/-- `s'` is `s` after it heard of a shape: it has an entry for it, counted if there was none, and
the other entries unless they were lost. -/
structure Heard (s' s : Site β) (shape : Shape) (lost : Bool) : Prop where
  capacity : s'.capacity = s.capacity
  distinctShapes :
    s'.distinctShapes = if shape ∈ s.shapes then s.distinctShapes else s.distinctShapes + 1
  missPenalty : s'.missPenalty = s.missPenalty
  shapes : ∀ x, x ∈ s'.shapes ↔ x = shape ∨ x ∈ s.shapes ∧ lost = false

theorem heard_of_alike (h : s'.Alike s) (hmem : shape ∈ s.shapes) :
    s'.Heard s shape false where
  capacity := h.capacity
  distinctShapes := by rw [h.distinctShapes, if_pos hmem]
  missPenalty := h.missPenalty
  shapes x := by
    rw [h.shapes]
    refine ⟨fun hx => .inr ⟨hx, rfl⟩, ?_⟩
    rintro (rfl | ⟨hx, -⟩)
    · exact hmem
    · exact hx

theorem Heard.of_alike {lost : Bool} (h : s''.Heard s' shape lost) (halike : s'.Alike s) :
    s''.Heard s shape lost where
  capacity := h.capacity.trans halike.capacity
  distinctShapes := by
    rw [h.distinctShapes, halike.distinctShapes]
    simp only [halike.shapes]
  missPenalty := h.missPenalty.trans halike.missPenalty
  shapes x := by rw [h.shapes, halike.shapes]

theorem Alike.heard {lost : Bool} (halike : s''.Alike s') (h : s'.Heard s shape lost) :
    s''.Heard s shape lost where
  capacity := halike.capacity.trans h.capacity
  distinctShapes := halike.distinctShapes.trans h.distinctShapes
  missPenalty := halike.missPenalty.trans h.missPenalty
  shapes x := (halike.shapes x).trans (h.shapes x)

theorem learn_of_room (hroom : s.entries.length < s.capacity) : s.learn r e = { s with
    distinctShapes := s.distinctShapes + 1, lastNewShapeAt := s.calls
    slots := fill s.capacity (e :: s.entries)
    phase := { s with distinctShapes := s.distinctShapes + 1 }.phaseAfterNewShape } := by
  have hinstall : ∀ s' : Site β, s'.slots = s.slots →
      s'.install r e = { s' with slots := fill s'.capacity (e :: s'.entries) } := by
    intro s' hslots
    refine if_neg (Nat.not_le_of_lt ?_)
    rwa [capacity, entries, hslots]
  simp only [Site.learn]
  rw [hinstall { s with distinctShapes := s.distinctShapes + 1, lastNewShapeAt := s.calls } rfl]
  rfl

/-- With room for one more, nothing has to go. -/
theorem heard_keep (hs : s.Valid) (hfree : e.shape ∈ s.shapes ∨ s.shapes.length < s.capacity) :
    (s.keep r e).Heard s e.shape false := by
  unfold Site.keep
  -- a known shape has its entry replaced, a new one takes a free slot
  split
  · next old hold =>
    have hmem : e.shape ∈ s.shapes := entryFor?_isSome_iff.mp (hold ▸ rfl)
    exact heard_of_alike (alike_updateEntry hs (fun _ _ => rfl) rfl rfl rfl) hmem
  · next hnone =>
    have hnew : e.shape ∉ s.shapes := entryFor?_eq_none.mp hnone
    have hroom : s.entries.length < s.capacity := length_shapes ▸ hfree.resolve_left hnew
    have hfill : fill s.capacity (e :: s.entries) =
        pack (e :: s.entries) (s.capacity - (e :: s.entries).length) := by
      rw [fill_eq_pack, List.take_of_length_le hroom]
    rw [learn_of_room hroom]
    refine ⟨?_, (if_neg hnew).symm, rfl, fun x => ?_⟩
    · exact length_fill
    · rw [shapes, entries_of_slots hfill, List.map_cons, List.mem_cons]
      simp [shapes]

/-- What comes of a site with room that answers a call: it heard of the shape, and if it then gave
up, it had counted more shapes than fit. -/
inductive Took (s : Site β) (shape : Shape) (lost : Bool) : Site β → Prop
  | kept {s' : Site β} (h : s'.Heard s shape lost) (hphase : s'.phase ≠ .megamorphic) :
    Took s shape lost s'
  | gaveUp {s' : Site β} (h : s'.Heard s shape lost) (hover : s'.capacity < s'.distinctShapes) :
    Took s shape lost s'.giveUp

theorem Took.of_heard {lost lost' : Bool} (h : s.Took shape lost s')
    (hheard : ∀ s' : Site β, s'.Heard s shape lost → s'.Heard s'' shape lost') :
    s''.Took shape lost' s' := by
  cases h with
  | kept h hphase => exact .kept (hheard _ h) hphase
  | gaveUp h hover => exact .gaveUp (hheard _ h) hover

/-- Freezing, if at all, is not giving up. -/
theorem kept_of_phase {lost : Bool} (h : s'.Heard s shape lost) {phase : Phase}
    (hphase : s'.phase = phase ∨ s'.phase = .frozen) (hne : phase ≠ .megamorphic) :
    s.Took shape lost s' := by
  refine .kept h ?_
  rcases hphase with hphase | hphase <;> rw [hphase]
  · exact hne
  · nofun

theorem took_follow (hmultiplier : 1 ≤ p.megamorphicMultiplier) (hroom : s'.capacity < Word.last)
    {lost : Bool} (h : s'.Heard s shape lost) (hphase : s'.phase ≠ .megamorphic) :
    s.Took shape lost (s'.follow r (p.verdict s'.evidence)) := by
  cases hverdict : p.verdict s'.evidence with
  | keep => exact .kept h hphase
  | freeze => exact kept_of_phase (alike_freeze.heard h) phase_freeze hphase
  | giveUp => exact .gaveUp h (Policy.capacity_lt_of_giveUp hmultiplier hroom hverdict)

theorem ne_megamorphic_of_isAdaptive (hphase : s.phase.isAdaptive) : s.phase ≠ .megamorphic := by
  intro hmega
  rw [hmega] at hphase
  cases hphase

theorem Heard.trans {lost : Bool} (h' : s''.Heard s' shape false) (h : s'.Heard s shape lost) :
    s''.Heard s shape lost where
  capacity := h'.capacity.trans h.capacity
  distinctShapes := by
    rw [h'.distinctShapes, if_pos ((h.shapes shape).mpr (.inl rfl)), h.distinctShapes]
  missPenalty := h'.missPenalty.trans h.missPenalty
  shapes x := by
    rw [h'.shapes, h.shapes]
    tauto

/-- To bind a shape anew, its entry is kept and the others are lost. -/
theorem heard_thaw (hs : s.Valid) (hbound : (s.frozen.getD []).any (·.shape = shape))
    (hmem : shape ∈ s.shapes) : (s.thaw shape).Heard s shape true := by
  obtain ⟨e, he⟩ := Option.isSome_iff_exists.mp (entryFor?_isSome_iff.mpr hmem)
  have hshape : e.shape = shape := by simpa using List.find?_some he
  obtain ⟨n, hn, hfill⟩ := fill_room (e := e) hs.room
  have hslots : (s.thaw shape).slots = pack [e] n := by
    simpa [Site.thaw, hbound, he] using hfill []
  refine ⟨?_, (if_pos hmem).symm, rfl, fun x => ?_⟩
  · rw [capacity, hslots, length_pack, hn, List.length_singleton, Nat.add_comm]
  · simp [shapes, entries_of_slots hslots, hshape]

section

variable (hs : s.Valid) (hmultiplier : 1 ≤ p.megamorphicMultiplier)
  (hroom : s.capacity < Word.last) (hfree : shape ∈ s.shapes ∨ s.shapes.length < s.capacity)
include hs hmultiplier hroom hfree

theorem took_absorb (hphase : s.phase = .cold ∨ s.phase.isAdaptive) :
    s.Took shape false (s.absorb p r shape found) := by
  have hkeep : (s.keep r ⟨shape, found.target, found.guard, 0, s.calls⟩).Heard s shape false :=
    heard_keep hs hfree
  exact took_follow hmultiplier (hkeep.capacity ▸ hroom) hkeep
    (ne_megamorphic_of_isAdaptive (hs.keep hphase).2.1)

theorem took_miss (hphase : s.phase = .cold ∨ s.phase.isAdaptive)
    (hok : (s.miss p q shape).1 = .ok t) : s.Took shape false (s.miss p q shape).2.1 := by
  rcases hq : q.resolve s.access shape.receiver s.name shape.args with ⟨err | found, q'⟩
  · rw [miss_of_error hq] at hok
    cases hok
  · rw [miss_of_ok hq]
    have hask : s.ask.Alike s := alike_of_slots rfl rfl rfl
    exact (took_absorb hs.ask hmultiplier hroom hfree hphase).of_heard fun _ h => h.of_alike hask

theorem took_serveAdaptive (hphase : s.phase.isAdaptive)
    (hok : (s.serveAdaptive p q shape).1 = .ok t) :
    s.Took shape false (s.serveAdaptive p q shape).2.1 := by
  unfold serveAdaptive at hok ⊢
  -- a hit learns nothing and may freeze the site, a miss goes to the resolver
  cases hentry : s.currentFor? q.registry shape with
  | some e =>
    have hmem : shape ∈ s.shapes :=
      entryFor?_isSome_iff.mp ((Option.filter_eq_some_iff.mp hentry).1 ▸ rfl)
    have halike : ((s.promote shape).considerFreezing p q.registry).Alike s :=
      alike_considerFreezing.trans (alike_promote hs)
    refine kept_of_phase (heard_of_alike halike hmem) ?_ (ne_megamorphic_of_isAdaptive hphase)
    show ((s.promote shape).considerFreezing p q.registry).phase = (s.promote shape).phase ∨ _
    unfold considerFreezing
    split
    · exact phase_freeze
    · exact .inl rfl
  | none =>
    rw [hentry] at hok
    exact took_miss hs hmultiplier hroom hfree (.inr hphase) hok

/-- A frozen site that cannot serve the shape thaws. If the shape is to be bound anew, the others
are lost. -/
theorem took_serveFrozen (hphase : s.phase = .frozen)
    (hok : (s.serveFrozen p q shape).1 = .ok t) :
    s.Took shape (s.rebinds q.registry shape) (s.serveFrozen p q shape).2.1 := by
  obtain ⟨kept, hfrozen⟩ :=
    Option.isSome_iff_exists.mp (hs.condition.in_phase.2.2.2.1.mpr hphase)
  have hsub := (hs.condition.in_phase.2.2.2.2 kept hfrozen).2
  -- the frozen copy holds entries of the slots
  have hmem : kept.any (·.shape = shape) → shape ∈ s.shapes := by
    intro hany
    obtain ⟨e, he, hshape⟩ := List.any_eq_true.mp hany
    exact List.mem_map.mpr ⟨e, hsub he, of_decide_eq_true hshape⟩
  unfold serveFrozen at hok ⊢
  cases hentry : s.frozenFor? q.registry shape with
  | some e =>
    have hfind : kept.find? (·.shape = shape) = some e := by
      rw [frozenFor?, hfrozen] at hentry
      exact (Option.filter_eq_some_iff.mp hentry).1
    have hshape : e.shape = shape := by simpa using List.find?_some hfind
    have hbound : kept.any (·.shape = shape) :=
      List.any_eq_true.mpr ⟨e, List.mem_of_find?_eq_some hfind, decide_eq_true hshape⟩
    -- what the frozen copy serves is not bound anew
    have hserved : s.rebinds q.registry shape = false := by simp [rebinds, hentry]
    rw [hserved]
    exact kept_of_phase (heard_of_alike (alike_recordHit hs) (hmem hbound)) (.inl hphase) nofun
  | none =>
    rw [hentry] at hok
    have hthaw : (s.thaw shape).Valid ∧ (s.thaw shape).phase.isAdaptive := hs.thaw hphase
    have hrebinds : s.rebinds q.registry shape = kept.any (·.shape = shape) := by
      simp [rebinds, hentry, hphase, hfrozen]
    -- Otherwise the site thaws, and the call goes on as a miss of the thawed site.
    have hmiss := fun hroom' hfree' =>
      took_miss hthaw.1 hmultiplier hroom' hfree' (.inr hthaw.2) hok
    rw [hrebinds]
    -- whether the shape was bound in the copy decides whether the other slots are cleared
    cases hbound : kept.any (·.shape = shape) with
    | true =>
      have hheard : (s.thaw shape).Heard s shape true :=
        heard_thaw hs (by rwa [hfrozen]) (hmem hbound)
      refine (hmiss ?_ ?_).of_heard fun _ h => h.trans hheard
      · exact hheard.capacity ▸ hroom
      · exact .inl ((hheard.shapes shape).mpr (.inl rfl))
    | false =>
      have hslots : (s.thaw shape).slots = s.slots := by simp [Site.thaw, hfrozen, hbound]
      have halike : (s.thaw shape).Alike s := alike_of_slots hslots rfl rfl
      refine (hmiss ?_ ?_).of_heard fun _ h => h.of_alike halike
      · exact halike.capacity ▸ hroom
      · rwa [halike.capacity, shapes, entries, hslots]

/-- A call of a site with room. -/
theorem took_dispatchShape (hphase : s.phase ≠ .megamorphic)
    (hok : (s.dispatchShape p q shape).1 = .ok t) :
    s.Took shape (s.rebinds q.registry shape) (s.dispatchShape p q shape).2.1 := by
  have hcount : s.count.Alike s := alike_of_slots rfl rfl rfl
  -- counting the call changes no entry, so it is enough to look at what comes after
  suffices h : s.count.Took shape (s.rebinds q.registry shape) (s.dispatchShape p q shape).2.1 from
    h.of_heard fun _ h => h.of_alike hcount
  have hthawed : s.phase ≠ .frozen → s.rebinds q.registry shape = false := by
    intro hne
    simp [rebinds, hne]
  rw [dispatchShape_eq] at hok ⊢
  -- only a frozen site has anything to bind anew
  cases h : s.phase with
  | cold =>
    rw [h] at hok
    rw [hthawed (by rw [h]; nofun)]
    exact took_miss hs.count hmultiplier hroom hfree (.inl h) hok
  | monomorphic | polymorphic =>
    rw [h] at hok
    rw [hthawed (by rw [h]; nofun)]
    exact took_serveAdaptive hs.count hmultiplier hroom hfree
      (show s.phase.isAdaptive by rw [h]; rfl) hok
  | megamorphic => exact absurd h hphase
  | frozen =>
    rw [h] at hok
    exact took_serveFrozen hs.count hmultiplier hroom hfree h hok

end

/-- A site that gave up keeps nothing. -/
theorem dispatchShape_of_megamorphic (hphase : s.phase = .megamorphic) :
    (s.dispatchShape p q shape).2.1 = s.count.ask := by
  rw [dispatchShape_eq, hphase]
  dsimp only
  rw [bypass_eq]

/-! ## Histories of calls -/

/-- A site that was created or reset and not called since. -/
inductive Fresh : Site β → Prop
  | created (id : Nat) (access : Access) (name : String) (capacity : Nat) :
    Fresh (create id access name capacity)
  | reset (s : Site β) : Fresh s.reset

end Site

/-- What a site heard since it was created or reset. -/
structure Tally where
  /-- The shapes of the calls. -/
  heard : Finset Shape
  /-- The shapes whose entries were lost when another was bound anew, and that did not come back
  since. -/
  lost : Finset Shape
  /-- How many calls had a shape that was lost. -/
  returns : Nat

namespace Tally

/-- Nothing was heard yet. -/
def empty : Tally := ⟨∅, ∅, 0⟩

/-- A call of some shape, through a site as it was before the call. -/
def call {β : Type} (t : Tally) (s : Site β) (r : Registry β) (shape : Shape) : Tally where
  heard := insert shape t.heard
  lost := ((if s.rebinds r shape then s.shapes.toFinset else ∅) ∪ t.lost).erase shape
  returns := if shape ∈ t.lost then t.returns + 1 else t.returns

theorem returns_le_call {β : Type} {t : Tally} {s : Site β} {r : Registry β} {shape : Shape} :
    t.returns ≤ (t.call s r shape).returns := by
  unfold call
  dsimp only
  split
  · exact Nat.le_succ _
  · exact Nat.le_refl _

end Tally

namespace Site

variable {β : Type} {s s' : Site β} {shape : Shape} {p : Policy} {q : Resolver β} {t : Tally}
variable {target : Target β} {room : Nat}

/-- The site agrees with the tally of its calls. -/
structure Absorbs (s : Site β) (room : Nat) (t : Tally) : Prop where
  capacity : s.capacity = room
  lost : t.lost ⊆ t.heard
  missPenalty : s.missPenalty = 0
  shapes : s.phase ≠ .megamorphic → ∀ x, x ∈ s.shapes ↔ x ∈ t.heard ∧ x ∉ t.lost
  distinctShapes : s.phase ≠ .megamorphic → s.distinctShapes = t.heard.card + t.returns
  gaveUp : s.phase = .megamorphic → 0 < t.returns

theorem absorbs_of_fresh (hs : s.Fresh) : s.Absorbs s.capacity .empty := by
  have hslots : ∃ room, s.slots = fill room [] := by
    cases hs <;> exact ⟨_, rfl⟩
  obtain ⟨room, hslots⟩ := hslots
  have hshapes : s.shapes = [] := by
    rw [shapes, entries_of_slots (hslots.trans (slots_empty _))]
    rfl
  refine ⟨rfl, Finset.Subset.refl _, ?_, fun _ x => ?_, fun _ => ?_, fun hmega => ?_⟩
  · cases hs <;> rfl
  · simp [hshapes, Tally.empty]
  · cases hs <;> rfl
  · cases hs <;> cases hmega

/-- Before a call whose shape is among those that fit, there is an entry for it or a free slot. -/
theorem Absorbs.has_room (h : s.Absorbs room t) (hs : s.Valid) (hphase : s.phase ≠ .megamorphic)
    (hfits : (insert shape t.heard).card ≤ room) :
    shape ∈ s.shapes ∨ s.shapes.length < s.capacity := by
  by_cases hmem : shape ∈ s.shapes
  · exact .inl hmem
  · rw [h.capacity]
    have hsub : insert shape s.shapes.toFinset ⊆ insert shape t.heard :=
      Finset.insert_subset_insert _ fun x hx => ((h.shapes hphase x).mp (List.mem_toFinset.mp hx)).1
    have hcard := (Finset.card_le_card hsub).trans hfits
    rw [Finset.card_insert_of_notMem (by simpa using hmem),
      List.toFinset_card_of_nodup (l := s.shapes) hs.condition.distinct] at hcard
    exact .inr hcard

/-- A shape of a call is new to the site if it was never heard or was lost; only in the second case
the count gets ahead of the shapes heard. -/
theorem Absorbs.counted (h : s.Absorbs room t) (hphase : s.phase ≠ .megamorphic) {lost : Bool}
    (hheard : s'.Heard s shape lost) : s'.distinctShapes =
      (t.call s q.registry shape).heard.card + (t.call s q.registry shape).returns := by
  rw [hheard.distinctShapes, h.distinctShapes hphase]
  simp only [h.shapes hphase, Tally.call]
  -- heard already and lost, heard already and there, or never heard
  by_cases hold : shape ∈ t.heard
  · rw [Finset.insert_eq_of_mem hold]
    by_cases hlost : shape ∈ t.lost
    · simp [hlost, Nat.add_assoc]
    · simp [hold, hlost]
  · have hlost : shape ∉ t.lost := fun hlost => hold (h.lost hlost)
    rw [Finset.card_insert_of_notMem hold]
    simp only [hold, hlost, false_and, if_false]
    omega

theorem Absorbs.shapes_subset (h : s.Absorbs room t) (hs : s.Valid) :
    s.shapes.toFinset ⊆ t.heard := by
  intro x hx
  rw [List.mem_toFinset] at hx
  by_cases hphase : s.phase = .megamorphic
  · rw [Site.shapes, hs.condition.in_phase.1 (.inr hphase)] at hx
    cases hx
  · exact ((h.shapes hphase x).mp hx).1

theorem Absorbs.lost_call (h : s.Absorbs room t) (hs : s.Valid) :
    (t.call s q.registry shape).lost ⊆ (t.call s q.registry shape).heard := by
  refine (Finset.erase_subset _ _).trans ((Finset.union_subset ?_ h.lost).trans
    (Finset.subset_insert _ _))
  split
  · exact h.shapes_subset hs
  · exact Finset.empty_subset _

theorem Absorbs.shapes_call (h : s.Absorbs room t) (hphase : s.phase ≠ .megamorphic)
    (hheard : s'.Heard s shape (s.rebinds q.registry shape)) (x : Shape) : x ∈ s'.shapes ↔
      x ∈ (t.call s q.registry shape).heard ∧ x ∉ (t.call s q.registry shape).lost := by
  have hold := h.shapes hphase x
  rw [hheard.shapes, hold]
  simp only [Tally.call, Finset.mem_insert, Finset.mem_erase, Finset.mem_union]
  -- what is bound anew drops all other shapes, and a call otherwise drops none
  cases s.rebinds q.registry shape with
  | true =>
    rw [if_pos rfl, List.mem_toFinset, hold]
    tauto
  | false =>
    rw [if_neg Bool.false_ne_true]
    simp only [Finset.notMem_empty]
    tauto

/-- Calls that are answered keep the agreement, as long as the shapes fit. -/
theorem Absorbs.call (h : s.Absorbs room t) (hs : s.Valid)
    (hmultiplier : 1 ≤ p.megamorphicMultiplier) (hroom : room < Word.last)
    (hfits : (t.call s q.registry shape).heard.card ≤ room)
    (hok : (s.dispatchShape p q shape).1 = .ok target) :
    (s.dispatchShape p q shape).2.1.Absorbs room (t.call s q.registry shape) := by
  by_cases hphase : s.phase = .megamorphic
  -- a site that gave up stays so, and returns are never taken back
  · rw [dispatchShape_of_megamorphic hphase]
    exact ⟨h.capacity, h.lost_call hs, h.missPenalty, absurd hphase, absurd hphase,
      fun _ => Nat.lt_of_lt_of_le (h.gaveUp hphase) Tally.returns_le_call⟩
  · have htook :=
      took_dispatchShape hs hmultiplier (h.capacity ▸ hroom) (h.has_room hs hphase hfits) hphase hok
    generalize (s.dispatchShape p q shape).2.1 = s' at htook
    -- with room for the shape the site keeps it, or it gives up for counting too many
    cases htook with
    | kept hheard hne =>
      exact ⟨hheard.capacity.trans h.capacity, h.lost_call hs,
        hheard.missPenalty.trans h.missPenalty, fun _ => h.shapes_call hphase hheard,
        fun _ => h.counted hphase hheard, fun hmega => absurd hmega hne⟩
    | @gaveUp s' hheard hover =>
      have hcapacity : s'.capacity = room := hheard.capacity.trans h.capacity
      refine ⟨?_, h.lost_call hs, hheard.missPenalty.trans h.missPenalty, absurd rfl, absurd rfl,
        fun _ => ?_⟩
      · exact length_fill.trans hcapacity
      · -- more shapes were counted than fit, but those heard do fit
        have hcounted := h.counted (q := q) hphase hheard
        omega

end Site

/-! ### The policy of an engine -/

theorem Settings.multiplier_of_valid {s : Settings} (h : s.fault? = none) :
    1 ≤ s.megamorphicMultiplier := by
  by_contra hzero
  have hzero : s.megamorphicMultiplier = 0 := by omega
  simp only [fault?, hzero] at h
  split at h <;> cases h

/-- A multiplier never becomes zero. -/
theorem Policy.multiplier_setAll {p : Policy} {changes : List (Threshold × Nat)}
    (h : 1 ≤ p.megamorphicMultiplier) : 1 ≤ (p.setAll changes).megamorphicMultiplier := by
  induction changes generalizing p with
  | nil => exact h
  | cons change rest ih =>
    refine ih ?_
    obtain ⟨threshold, value⟩ := change
    cases threshold with
    | multiplier => exact Nat.le_max_right _ _
    | optimize | fallback | window => exact h

namespace Engine

variable {β : Type} {g : Engine β} {key : SiteKey} {s : Site β} {op : Operation β} {t : Tally}
variable {room : Nat}

theorem multiplier_perform (h : 1 ≤ g.policy.megamorphicMultiplier) (op : Operation β) :
    1 ≤ (g.perform op).policy.megamorphicMultiplier := by
  rw [(frame_perform g op).1]
  split
  · exact Policy.multiplier_setAll h
  · exact h

/-- The engine was created with settings that are valid, and then used. -/
def Launched (g : Engine β) : Prop :=
  ∃ settings g₀, create settings = .ok g₀ ∧ Run Anything g₀ g

theorem Launched.perform (hg : g.Launched) (op : Operation β) : (g.perform op).Launched := by
  obtain ⟨settings, g₀, hcreate, hrun⟩ := hg
  exact ⟨settings, g₀, hcreate, hrun.tail ⟨op, trivial, rfl⟩⟩

theorem Launched.reachable (hg : g.Launched) : g.Reachable := by
  obtain ⟨settings, g₀, hcreate, hrun⟩ := hg
  exact ⟨settings, (eq_build_of_create hcreate).1 ▸ hrun⟩

theorem Launched.multiplier (hg : g.Launched) : 1 ≤ g.policy.megamorphicMultiplier := by
  obtain ⟨settings, g₀, hcreate, hrun⟩ := hg
  refine hrun.preserves (P := fun g => 1 ≤ g.policy.megamorphicMultiplier)
    (fun g op _ h => multiplier_perform h op) ?_
  obtain ⟨rfl, hfault⟩ := eq_build_of_create hcreate
  exact Settings.multiplier_of_valid hfault

/-! ### The calls of one site -/

/-- The operation neither calls nor resets nor drops the site of a key. -/
def Operation.Spares (key : SiteKey) (op : Operation β) : Prop :=
  ¬ op.Resets key ∧ op ≠ .drop key ∧ ∀ receiver args, op ≠ .dispatch key receiver args

/-- The engine got its state from a site that was created or reset with some room, by calls that
were answered, tallied, and operations on anything else. -/
inductive History (key : SiteKey) (room : Nat) : Engine β → Tally → Prop
  | start {g : Engine β} {s : Site β} (hg : g.Launched) (hs : g.sites.get? key = some s)
    (hfresh : s.Fresh) (hroom : s.capacity = room) : History key room g .empty
  | other {g : Engine β} {t : Tally} {op : Operation β} (h : History key room g t)
    (hop : op.Spares key) : History key room (g.perform op) t
  | call {g : Engine β} {t : Tally} {s : Site β} {receiver : Value} {args : List Value}
    {target : Target β} (h : History key room g t) (hs : g.sites.get? key = some s)
    (hok : (g.dispatch key receiver args).1 = some (.ok target)) :
    History key room (g.perform (.dispatch key receiver args))
      (t.call s g.registry (.ofCall g.registry receiver args))

theorem History.launched (h : History key room g t) : g.Launched := by
  induction h with
  | start hg => exact hg
  | other _ _ ih | call _ _ _ ih => exact ih.perform _

/-- A site stays there until it is dropped. -/
theorem exists_site_perform (hs : g.sites.get? key = some s) (hop : op ≠ .drop key) :
    ∃ s', (g.perform op).sites.get? key = some s' := by
  rw [get?_perform]
  -- dropping the site is the one operation that takes it away
  cases op with
  | openSite | attach | dispatch | resetSite =>
    simp only [Operation.siteAfter, hs]
    split <;> exact ⟨_, rfl⟩
  | drop key' =>
    have hne : key' ≠ key := fun h => hop (h ▸ rfl)
    simp only [Operation.siteAfter, if_neg hne]
    exact ⟨s, hs⟩
  | resetSites =>
    rw [Operation.siteAfter, hs]
    exact ⟨_, rfl⟩
  | _ => exact ⟨s, hs⟩

/-- Other operations leave the site as it is. -/
theorem site_of_spares (hg : g.Reachable) (hs : g.sites.get? key = some s) (hop : op.Spares key) :
    (g.perform op).sites.get? key = some s := by
  obtain ⟨hreset, hdrop, hcall⟩ := hop
  obtain ⟨s', hs'⟩ := exists_site_perform hs hdrop
  -- that the site moved in some other way than by a call or a reset leaves it as it was
  rcases sites_perform hg.unused hs' with ⟨s₀, hs₀, hmoves⟩ | ⟨hnone, -⟩
  · rw [hs] at hs₀
    cases hs₀
    cases hmoves with
    | rest => exact hs'
    | call hop => exact absurd hop (hcall _ _)
    | reset h => exact absurd h hreset
  · rw [hs] at hnone
    cases hnone

/-- As long as the shapes heard fit, the site agrees with the tally. -/
theorem History.site (h : History key room g t) (hroom : room < Word.last)
    (hfits : t.heard.card ≤ room) : ∃ s, g.sites.get? key = some s ∧ s.Absorbs room t := by
  -- Induction on the history. The shapes heard only become more, so those of before fit too.
  induction h with
  | start _ hs hfresh hcapacity => exact ⟨_, hs, hcapacity ▸ Site.absorbs_of_fresh hfresh⟩
  | other h hop ih =>
    obtain ⟨s, hs, habsorbs⟩ := ih hfits
    exact ⟨s, site_of_spares h.launched.reachable hs hop, habsorbs⟩
  | @call g t s receiver args target h hs hok ih =>
    obtain ⟨s₀, hs₀, habsorbs⟩ := ih ((Finset.card_le_card (Finset.subset_insert _ _)).trans hfits)
    rw [hs] at hs₀
    cases hs₀
    rw [dispatch_of_site hs] at hok
    refine ⟨(s.dispatch g.policy g.resolver receiver args).2.1, ?_, ?_⟩
    · simp only [perform, dispatch_of_site hs, Table.get?_insert, if_true]
    · exact habsorbs.call (h.launched.reachable.valid hs) h.launched.multiplier hroom hfits
        (Option.some.inj hok)

/-- A site that was called with no more shapes than it has room for evicts nothing. It has entries
for all of these shapes but those that were lost when another was bound anew. Its count is the
number of shapes and it does not give up exactly if no shape that was lost came back. -/
theorem History.absorbs (h : History key room g t) (hroom : room < Word.last)
    (hfits : t.heard.card ≤ room) : ∃ s, g.sites.get? key = some s ∧ s.missPenalty = 0 ∧
      (s.phase ≠ .megamorphic → ∀ x, (s.entryFor? x).isSome ↔ x ∈ t.heard ∧ x ∉ t.lost) ∧
      (s.distinctShapes ≤ t.heard.card ∧ s.phase ≠ .megamorphic ↔ t.returns = 0) := by
  obtain ⟨s, hs, habsorbs⟩ := h.site hroom hfits
  refine ⟨s, hs, habsorbs.missPenalty, fun hphase x => ?_, ?_, fun hzero => ?_⟩
  · rw [Site.entryFor?_isSome_iff]
    exact habsorbs.shapes hphase x
  -- the count runs ahead of the shapes heard by the returns, and giving up needs one
  · rintro ⟨hle, hphase⟩
    have hcounted := habsorbs.distinctShapes hphase
    omega
  · have hphase : s.phase ≠ .megamorphic := by
      intro hmega
      have hreturned := habsorbs.gaveUp hmega
      omega
    have hcounted := habsorbs.distinctShapes hphase
    exact ⟨by omega, hphase⟩

/-- Two classes with a method each, and a site for it with room for two shapes, which freezes as
soon as it can. -/
def sampleRing : Engine Unit :=
  (((build ⟨2, 0, 0, 1, 0, true, 4096⟩).perform
    (.define ⟨"A", none, [], false, []⟩ [⟨⟨"m", [], false⟩, .body ()⟩])).perform
    (.define ⟨"B", none, [], false, []⟩ [⟨⟨"m", [], false⟩, .body ()⟩])).perform
    (.openSite 0 .method "m")

/-- A call for an instance of a class. -/
def ringCall (c : ClassRef) : Operation Unit := .dispatch (.numbered 0) (.object ⟨c.index, c⟩) []

/-- The method was called for both classes in turn. -/
def sampleRound : Engine Unit := (sampleRing.perform (ringCall ⟨8⟩)).perform (ringCall ⟨9⟩)

/-- One of the classes was invalidated and the method called for both again. -/
def sampleReturn : Engine Unit :=
  ((sampleRound.perform (.invalidate ⟨8⟩)).perform (ringCall ⟨8⟩)).perform (ringCall ⟨9⟩)

/-- The shape of such a call. -/
def ringShape (c : ClassRef) : Shape := ⟨.plain c, .ofClasses []⟩

theorem history_sampleRound : ∃ t, History (.numbered 0) 2 sampleRound t ∧
    t.heard = {ringShape ⟨8⟩, ringShape ⟨9⟩} ∧ t.returns = 0 := by
  have hlaunched : sampleRing.Launched :=
    ⟨⟨2, 0, 0, 1, 0, true, 4096⟩, _, rfl,
      .tail (.tail (.tail .refl ⟨_, trivial, rfl⟩) ⟨_, trivial, rfl⟩) ⟨_, trivial, rfl⟩⟩
  have hstart : History (.numbered 0) 2 sampleRing .empty :=
    .start hlaunched rfl (.created 0 .method "m" 2) rfl
  have hfirst : History (.numbered 0) 2 (sampleRing.perform (ringCall ⟨8⟩)) _ :=
    .call hstart rfl rfl
  have hsecond : History (.numbered 0) 2 sampleRound _ := .call hfirst rfl rfl
  exact ⟨_, hsecond, by decide, by decide⟩

/-- The two shapes fit and none of them was lost, so the site did not give up. -/
theorem absorbs_sampleRound : ∃ s, sampleRound.sites.get? (.numbered 0) = some s ∧
    s.missPenalty = 0 ∧ s.distinctShapes ≤ 2 ∧ s.phase ≠ .megamorphic := by
  obtain ⟨t, h, hheard, hreturns⟩ := history_sampleRound
  have hcard : t.heard.card = 2 := by
    rw [hheard]
    decide
  obtain ⟨s, hs, hpenalty, -, hiff⟩ := h.absorbs (by decide) (Nat.le_of_eq hcard)
  obtain ⟨hcount, hphase⟩ := hiff.mpr hreturns
  exact ⟨s, hs, hpenalty, hcard ▸ hcount, hphase⟩

/-- After the invalidation the site heard of the same two shapes only, and gave up. -/
theorem gaveUp_sampleReturn : ∃ t s, History (.numbered 0) 2 sampleReturn t ∧ t.heard.card = 2 ∧
    sampleReturn.sites.get? (.numbered 0) = some s ∧ s.distinctShapes = 3 ∧
    s.phase = .megamorphic := by
  obtain ⟨t, h, hheard, -⟩ := history_sampleRound
  have hstale : History (.numbered 0) 2 (sampleRound.perform (.invalidate ⟨8⟩)) t :=
    .other h ⟨nofun, nofun, nofun⟩
  have hbound : History (.numbered 0) 2
      ((sampleRound.perform (.invalidate ⟨8⟩)).perform (ringCall ⟨8⟩)) _ := .call hstale rfl rfl
  have hreturned : History (.numbered 0) 2 sampleReturn _ := .call hbound rfl rfl
  refine ⟨_, _, hreturned, ?_, rfl, by decide, by decide⟩
  show (insert (ringShape ⟨9⟩) (insert (ringShape ⟨8⟩) t.heard)).card = 2
  rw [hheard]
  decide

end Engine

end LateBinding
