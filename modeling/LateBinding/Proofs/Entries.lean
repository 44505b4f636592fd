import LateBinding.Proofs.Calls

/-!
# What call sites remember

The entries of a call site, in the slots and among the frozen ones, say what was found for a
shape. Every part of a call keeps entries, moves them, drops them or makes one new entry
(`Site.Evolves`). So a call is served by a valid entry, or it asks the resolver, and then at most
the answer is remembered (`Site.served_dispatch`).
-/

namespace LateBinding

/-- The entry says what was found for a shape. -/
def Entry.Says {β : Type} (e : Entry β) (shape : Shape) (found : Resolution β) : Prop :=
  e.shape = shape ∧ e.target = found.target ∧ e.guard = found.guard

namespace Site

variable {β : Type} {s s' s'' : Site β} {e : Entry β} {shape : Shape} {room : Nat}
variable {p : Policy} {r : Registry β} {q : Resolver β} {found : Resolution β}
variable {slots : List (Option (Entry β))}

/-- An entry of the site, in the slots or among the frozen ones, says what was found for a
shape. -/
def Recalls (s : Site β) (shape : Shape) (found : Resolution β) : Prop :=
  ∃ e : Entry β, (some e ∈ s.slots ∨ e ∈ s.frozen.getD []) ∧ e.Says shape found

theorem mem_entries : e ∈ s.entries ↔ some e ∈ s.slots := by
  simp [entries]

theorem mem_of_mem_fill {es : List (Entry β)} (he : some e ∈ fill room es) : e ∈ es := by
  obtain ⟨i, -, hi⟩ := List.mem_map.mp he
  exact List.mem_of_getElem? hi

/-- After a change of the entry for a shape, there are the changed one and those of before. -/
theorem mem_updateEntry {f : Entry β → Entry β} (he : some e ∈ updateEntry shape f slots) :
    some e ∈ slots ∨ ∃ old, some old ∈ slots ∧ old.shape = shape ∧ e = f old := by
  -- along the slots, of which only the first that holds the shape is changed
  induction slots with
  | nil => cases he
  | cons slot rest ih =>
    unfold updateEntry at he
    split at he
    · next hholds =>
      rcases List.mem_cons.mp he with hfirst | he
      · obtain ⟨old, rfl, rfl⟩ := Option.map_eq_some_iff.mp hfirst.symm
        exact .inr ⟨old, List.mem_cons_self, by simpa [holds] using hholds, rfl⟩
      · exact .inl (List.mem_cons_of_mem _ he)
    · rcases List.mem_cons.mp he with hfirst | he
      · exact .inl (hfirst ▸ List.mem_cons_self)
      · refine (ih he).imp (List.mem_cons_of_mem _) ?_
        rintro ⟨old, hold, h⟩
        exact ⟨old, List.mem_cons_of_mem _ hold, h⟩

theorem mem_of_mem_moveToFront {slot : Option (Entry β)}
    (hslot : slot ∈ moveToFront shape slots) : slot ∈ slots := by
  unfold moveToFront at hslot
  split at hslot
  · exact hslot
  · next first hfirst =>
    rcases List.mem_cons.mp hslot with rfl | hslot
    · exact List.mem_of_find?_eq_some hfirst
    · exact List.mem_of_mem_eraseP hslot

/-! ## What parts of a call learn -/

/-- `s'` is a later condition of `s` that recalls nothing else, except for `news`. -/
structure Evolves (s' s : Site β) (news : Shape → Resolution β → Prop) : Prop where
  access : s'.access = s.access
  name : s'.name = s.name
  recalls : ∀ {shape found}, s'.Recalls shape found → s.Recalls shape found ∨ news shape found

variable {news : Shape → Resolution β → Prop}

theorem Evolves.refl : s.Evolves s news := ⟨rfl, rfl, .inl⟩

theorem Evolves.trans (h' : s''.Evolves s' news) (h : s'.Evolves s news) : s''.Evolves s news :=
  ⟨h'.access.trans h.access, h'.name.trans h.name, fun hr => (h'.recalls hr).elim h.recalls .inr⟩

theorem Evolves.old (h : s'.Evolves s fun _ _ => False) (hr : s'.Recalls shape found) :
    s.Recalls shape found :=
  (h.recalls hr).resolve_right not_false

/-- Entries of the site are kept or dropped. -/
theorem evolves_of_subset (haccess : s'.access = s.access) (hname : s'.name = s.name)
    (hslots : ∀ e, some e ∈ s'.slots → some e ∈ s.slots)
    (hfrozen : ∀ e ∈ s'.frozen.getD [], e ∈ s.frozen.getD [] ∨ some e ∈ s.slots) :
    s'.Evolves s news := by
  refine ⟨haccess, hname, fun ⟨e, he, hsays⟩ => .inl ⟨e, ?_, hsays⟩⟩
  rcases he with he | he
  · exact .inl (hslots e he)
  · exact (hfrozen e he).symm

/-- All entries are dropped. -/
theorem evolves_of_empty (haccess : s'.access = s.access) (hname : s'.name = s.name)
    (hslots : s'.slots = fill room []) (hfrozen : s'.frozen = none) : s'.Evolves s news := by
  refine evolves_of_subset haccess hname (fun e he => ?_) fun e he => ?_
  · rw [hslots] at he
    exact absurd (mem_of_mem_fill he) List.not_mem_nil
  · rw [hfrozen] at he
    exact absurd he List.not_mem_nil

/-- Counters do not matter. -/
theorem evolves_of_eq (haccess : s'.access = s.access) (hname : s'.name = s.name)
    (hslots : s'.slots = s.slots) (hfrozen : s'.frozen = s.frozen) : s'.Evolves s news :=
  evolves_of_subset haccess hname (fun _ he => hslots ▸ he) fun _ he => .inl (hfrozen ▸ he)

theorem evolves_recordHit : (s.recordHit shape).Evolves s news := by
  refine ⟨rfl, rfl, fun ⟨e, he, hsays⟩ => .inl ?_⟩
  -- a hit counts in an entry and changes neither its target nor its guard
  rcases he with he | he
  · rcases mem_updateEntry he with he | ⟨old, hold, -, rfl⟩
    · exact ⟨e, .inl he, hsays⟩
    · exact ⟨old, .inl hold, hsays⟩
  · have hmap : (s.recordHit shape).frozen.getD [] =
        (s.frozen.getD []).map (Entry.hitBy shape s.calls) := by
      cases hfrozen : s.frozen <;> simp [recordHit, hfrozen]
    rw [hmap] at he
    obtain ⟨old, hold, rfl⟩ := List.mem_map.mp he
    refine ⟨old, .inr hold, ?_⟩
    unfold Entry.hitBy at hsays
    split at hsays <;> exact hsays

theorem evolves_promote : (s.promote shape).Evolves s news := by
  have hmove : (s.promote shape).Evolves (s.recordHit shape) news :=
    evolves_of_subset rfl rfl (fun _ => mem_of_mem_moveToFront) fun _ => .inl
  exact hmove.trans evolves_recordHit

theorem evolves_freeze : (s.freeze r).Evolves s news := by
  unfold Site.freeze
  split
  · exact .refl
  · refine evolves_of_subset rfl rfl (fun _ he => he) fun e he => .inr ?_
    exact mem_entries.mp (List.mem_filter.mp he).1

theorem evolves_giveUp : s.giveUp.Evolves s news := evolves_of_empty rfl rfl rfl rfl

theorem evolves_reset : s.reset.Evolves s news := evolves_of_empty rfl rfl rfl rfl

theorem evolves_follow {v : Verdict} : (s.follow r v).Evolves s news := by
  cases v with
  | keep => exact .refl
  | freeze => exact evolves_freeze
  | giveUp => exact evolves_giveUp

theorem evolves_considerFreezing : (s.considerFreezing p r).Evolves s news := by
  unfold considerFreezing
  split
  · exact evolves_freeze
  · exact .refl

theorem evolves_thaw : (s.thaw shape).Evolves s news := by
  refine evolves_of_subset rfl rfl (fun e he => ?_) fun e he => absurd he List.not_mem_nil
  simp only [thaw] at he
  split at he
  · have hfound := Option.mem_toList.mp (mem_of_mem_fill he)
    exact mem_entries.mp (List.mem_of_find?_eq_some hfound)
  · exact he

/-- One entry is new. -/
theorem evolves_of_entry (haccess : s'.access = s.access) (hname : s'.name = s.name)
    (hslots : ∀ x, some x ∈ s'.slots → x = e ∨ some x ∈ s.slots) (hfrozen : s'.frozen = s.frozen)
    (hnews : news e.shape ⟨e.target, e.guard⟩) : s'.Evolves s news := by
  refine ⟨haccess, hname, fun {shape found} ⟨x, hx, hsays⟩ => ?_⟩
  -- a finding is read off an entry, so an entry that is not the new one says what it said before
  rcases hx with hx | hx
  · rcases hslots x hx with rfl | hold
    · obtain ⟨rfl, htarget, hguard⟩ := hsays
      have hfound : (⟨x.target, x.guard⟩ : Resolution β) = found := by rw [htarget, hguard]
      exact .inr (hfound ▸ hnews)
    · exact .inl ⟨x, .inl hold, hsays⟩
  · exact .inl ⟨x, .inr (hfrozen ▸ hx), hsays⟩

theorem evolves_learn (hnews : news e.shape ⟨e.target, e.guard⟩) :
    (s.learn r e).Evolves s news := by
  have hfill : ∀ l : List (Entry β), l ⊆ s.entries → ∀ x, some x ∈ fill s.capacity (e :: l) →
      x = e ∨ some x ∈ s.slots := fun l hl x hx =>
    (List.mem_cons.mp (mem_of_mem_fill hx)).imp_right fun hx => mem_entries.mp (hl hx)
  rcases learn_eq (s := s) (r := r) (e := e) with heq | heq <;> rw [heq]
  · exact evolves_of_entry rfl rfl (hfill _ (List.eraseIdx_sublist _ _).subset) rfl hnews
  · exact evolves_of_entry rfl rfl (hfill _ (List.Subset.refl _)) rfl hnews

theorem evolves_keep (hnews : news e.shape ⟨e.target, e.guard⟩) :
    (s.keep r e).Evolves s news := by
  unfold Site.keep
  split
  · refine evolves_of_entry rfl rfl (fun x hx => ?_) rfl hnews
    rcases mem_updateEntry hx with hold | ⟨-, -, -, hnew⟩
    · exact .inr hold
    · exact .inl hnew
  · exact evolves_learn hnews

theorem evolves_absorb (hnews : news shape found) :
    (s.ask.absorb p r shape found).Evolves s news := by
  refine evolves_follow.trans ((evolves_keep hnews).trans ?_)
  exact evolves_of_eq rfl rfl rfl rfl

/-! ## What a call learns -/

/-- What a call through a site comes to: it is served by a valid entry, or the member is
resolved, and what is found is kept or not. -/
inductive Served (s : Site β) (q : Resolver β) (shape : Shape) :
    Except DispatchError (Target β) × Site β × Resolver β → Prop
  | hit {e : Entry β} {s' : Site β} (he : s.Recalls shape ⟨e.target, e.guard⟩)
    (hcur : e.isCurrent q.registry) (hs' : s'.Evolves s fun _ _ => False) :
    Served s q shape (.ok e.target, s', q)
  | asked {s' : Site β} (hs' : s'.Evolves s fun x found =>
      x = shape ∧ (q.resolve s.access shape.receiver s.name shape.args).1 = .ok found) :
    Served s q shape ((q.resolve s.access shape.receiver s.name shape.args).1.map (·.target), s',
      (q.resolve s.access shape.receiver s.name shape.args).2)

theorem evolves_ask : s.ask.Evolves s news := evolves_of_eq rfl rfl rfl rfl

theorem evolves_count : s.count.Evolves s news := evolves_of_eq rfl rfl rfl rfl

/-- A miss after something that at most dropped entries. -/
theorem served_miss {s₁ : Site β} (h : ∀ news, s₁.Evolves s news) :
    s.Served q shape (s₁.miss p q shape) := by
  -- the answer to the question is what the site asked, whatever the site is by then
  have hasked : ∀ {s' : Site β}, s'.Evolves s (fun x found =>
      x = shape ∧ (q.resolve s.access shape.receiver s.name shape.args).1 = .ok found) →
      s.Served q shape _ := Served.asked
  rcases hq : q.resolve s₁.access shape.receiver s₁.name shape.args with ⟨err | found, q'⟩
  · -- `s₁` asks for the same member as `s`, so it asks the same question
    rw [miss_of_error hq]
    rw [(h fun _ _ => False).access, (h fun _ _ => False).name] at hq
    rw [hq] at hasked
    exact hasked (evolves_ask.trans (h _))
  · rw [miss_of_ok hq]
    rw [(h fun _ _ => False).access, (h fun _ _ => False).name] at hq
    rw [hq] at hasked
    exact hasked ((evolves_absorb ⟨rfl, rfl⟩).trans (h _))

theorem recalls_of_currentFor (he : s.currentFor? r shape = some e) :
    s.Recalls shape ⟨e.target, e.guard⟩ ∧ e.isCurrent r := by
  obtain ⟨hfind, hcur⟩ := Option.filter_eq_some_iff.mp he
  have hmem := mem_entries.mp (List.mem_of_find?_eq_some hfind)
  exact ⟨⟨e, .inl hmem, by simpa using List.find?_some hfind, rfl, rfl⟩, hcur⟩

theorem recalls_of_frozenFor (he : s.frozenFor? r shape = some e) :
    s.Recalls shape ⟨e.target, e.guard⟩ ∧ e.isCurrent r := by
  obtain ⟨hfind, hcur⟩ := Option.filter_eq_some_iff.mp he
  have hmem := List.mem_of_find?_eq_some hfind
  exact ⟨⟨e, .inr hmem, by simpa using List.find?_some hfind, rfl, rfl⟩, hcur⟩

/-- Every call is served in one of the two ways. -/
theorem served_dispatchShape : s.Served q shape (s.dispatchShape p q shape) := by
  -- the call is counted before all else, and what a phase does comes after
  have hcount : ∀ news, s.count.Evolves s news := fun _ => evolves_count
  rw [dispatchShape_eq]
  split
  · exact served_miss hcount
  · rw [bypass_eq]
    exact .asked (evolves_ask.trans evolves_count)
  · unfold serveFrozen
    split
    · next he =>
      obtain ⟨hrecalls, hcur⟩ := recalls_of_frozenFor he
      exact .hit hrecalls hcur (evolves_recordHit.trans evolves_count)
    · exact served_miss fun _ => evolves_thaw.trans evolves_count
  all_goals
    unfold serveAdaptive
    split
    · next he =>
      obtain ⟨hrecalls, hcur⟩ := recalls_of_currentFor he
      exact .hit hrecalls hcur
        (evolves_considerFreezing.trans (evolves_promote.trans evolves_count))
    · exact served_miss hcount

theorem served_dispatch {receiver : Value} {args : List Value} :
    s.Served q (.ofCall q.registry receiver args) (s.dispatch p q receiver args) :=
  served_dispatchShape

end Site

end LateBinding
