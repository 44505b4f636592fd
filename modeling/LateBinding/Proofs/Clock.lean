import LateBinding.Proofs.Recall

/-!
# One clock

All registries of a process draw the stamps of their cells from one clock. A cell gets a stamp when
it comes into being, when its members change, and when it is declared stale; nothing else touches
stamps.

* `Registry.Stroke`: what the code does to cells, one primitive at a time, with the owner whose
  cell is stamped anew. Every operation of an engine is a sequence of strokes
  (`Engine.strokes_perform`).
* `Process`: registries under one clock, and `Process.Run`: their strokes in any order, with the
  list of all cells that were stamped anew.
* `Process.run_stamps`: stamps are distinct and only grow, an old stamp is never given again, and
  so a guard is current as long as its cells were not stamped anew.
-/

namespace LateBinding

namespace Registry

variable {β : Type} {r r' r'' : Registry β} {o : Owner} {log log' : List Owner} {c : ClassRef}

/-! ## Strokes -/

/-- One primitive step, with the owner whose cell it stamps anew, if any: a cell comes into being,
is stamped anew, or has its members changed; or all cells are left alone. -/
inductive Stroke (r : Registry β) : Option Owner → Registry β → Prop
  | create {o : Owner} (content : MemberTable β) (absent : r.version? o = none) :
      Stroke r none (r.ensureCell o content)
  | bump {o : Owner} (present : (r.version? o).isSome) : Stroke r (some o) (r.bump o)
  | mutate {o : Owner} (change : Change β) (present : (r.version? o).isSome) :
      Stroke r (some o) (r.mutate o change)
  | declare (h : Hierarchy) (declared : Array (List (Method β))) (serial : Nat) :
      Stroke r none { r with hierarchy := h, declared := declared, nextSerial := serial }

/-- A stroke leaves clock and stamps as they are, or it moves the clock on and gives the new stamp
to one cell: one that was there and is stamped anew, or a new one. -/
theorem Stroke.stamps {w : Option Owner} (hs : r.Stroke w r') :
    (w = none ∧ r'.clock = r.clock ∧ ∀ o, r'.version? o = r.version? o) ∨
      ∃ o, r'.clock = r.clock + 1 ∧
        (w = some o ∧ (r.version? o).isSome ∨ w = none ∧ r.version? o = none) ∧
        ∀ o', r'.version? o' = if o = o' then some (r.clock + 1) else r.version? o' := by
  -- a cell that is created, stamped anew or changed gets the next stamp, and a declaration gives
  -- none
  cases hs with
  | @create o content habsent =>
    have hcell : r.cell? o = none := by simpa [version?] using habsent
    refine .inr ⟨o, by simp [ensureCell, hcell], .inr ⟨rfl, habsent⟩, fun o' => ?_⟩
    rw [version?, cell?_ensureCell]
    split
    · next ho => simp [← ho, hcell]
    · rfl
  | @bump o hpresent =>
    obtain ⟨cell, hcell⟩ : ∃ cell, r.cell? o = some cell := by
      simpa [version?, Option.isSome_iff_exists] using hpresent
    refine .inr ⟨o, by simp [Registry.bump, hcell], .inl ⟨rfl, hpresent⟩, fun o' => ?_⟩
    rw [version?, cell?_bump]
    split
    · next ho => simp [← ho, hcell]
    · rfl
  | @mutate o change hpresent =>
    obtain ⟨cell, hcell⟩ : ∃ cell, r.cell? o = some cell := by
      simpa [version?, Option.isSome_iff_exists] using hpresent
    refine .inr ⟨o, by simp [Registry.mutate, hcell], .inl ⟨rfl, hpresent⟩, fun o' => ?_⟩
    rw [version?, cell?_mutate]
    split
    · next ho => simp [← ho, hcell]
    · rfl
  | declare => exact .inl ⟨rfl, rfl, fun _ => rfl⟩

/-- Strokes in a row, with the owners whose cells they stamped anew, in order. -/
inductive Strokes (r : Registry β) : List Owner → Registry β → Prop
  | refl : Strokes r [] r
  | tail {log : List Owner} {r' r'' : Registry β} {w : Option Owner} (before : Strokes r log r')
      (stroke : r'.Stroke w r'') : Strokes r (log ++ w.toList) r''

namespace Strokes

theorem single {w : Option Owner} (hs : r.Stroke w r') : r.Strokes w.toList r' := by
  simpa using Strokes.tail .refl hs

theorem trans (h : r.Strokes log r') (h' : r'.Strokes log' r'') : r.Strokes (log ++ log') r'' := by
  induction h' with
  | refl => simpa using h
  | tail _ stroke ih =>
    rw [← List.append_assoc]
    exact ih.tail stroke

/-- What is done to a registry in strokes for each of several things, is done in strokes for
all. -/
theorem foldl {α : Type} {f : Registry β → α → Registry β}
    (hf : ∀ (r : Registry β) a, ∃ log, r.Strokes log (f r a)) (l : List α) (r : Registry β) :
    ∃ log, r.Strokes log (l.foldl f r) := by
  induction l generalizing r with
  | nil => exact ⟨[], .refl⟩
  | cons a rest ih =>
    obtain ⟨log, hlog⟩ := hf r a
    obtain ⟨log', hlog'⟩ := ih (f r a)
    exact ⟨log ++ log', hlog.trans hlog'⟩

end Strokes

/-! ### Operations in strokes -/

theorem strokes_ensureCell (o : Owner) (content : MemberTable β) :
    ∃ log, r.Strokes log (r.ensureCell o content) := by
  cases hcell : r.cell? o with
  | none => exact ⟨_, .single (.create content (by simp [version?, hcell]))⟩
  | some cell =>
    have hsame : r.ensureCell o content = r := by simp [ensureCell, hcell]
    rw [hsame]
    exact ⟨[], .refl⟩

theorem strokes_ensureClass (c : ClassRef) : ∃ log, r.Strokes log (r.ensureClass c) := by
  rw [ensureClass_eq]
  exact strokes_ensureCell _ _

theorem strokes_bump (o : Owner) : ∃ log, r.Strokes log (r.bump o) := by
  cases hcell : r.cell? o with
  | none =>
    have hsame : r.bump o = r := by simp [Registry.bump, hcell]
    rw [hsame]
    exact ⟨[], .refl⟩
  | some cell => exact ⟨_, .single (.bump (by simp [version?, hcell]))⟩

theorem strokes_mutate (o : Owner) (change : Change β) :
    ∃ log, r.Strokes log (r.mutate o change) := by
  cases hcell : r.cell? o with
  | none =>
    have hsame : r.mutate o change = r := by simp [Registry.mutate, hcell]
    rw [hsame]
    exact ⟨[], .refl⟩
  | some cell => exact ⟨_, .single (.mutate change (by simp [version?, hcell]))⟩

/-- Going on from what was done in strokes. -/
theorem strokes_then (h : ∃ log, r.Strokes log r') (h' : ∃ log, r'.Strokes log r'') :
    ∃ log, r.Strokes log r'' := by
  obtain ⟨log, hlog⟩ := h
  obtain ⟨log', hlog'⟩ := h'
  exact ⟨log ++ log', hlog.trans hlog'⟩

theorem strokes_materializeAll (cs : List ClassRef) :
    ∃ log, r.Strokes log (r.materializeAll cs) :=
  Strokes.foldl (fun _ c => strokes_ensureClass c) cs r

theorem strokes_invalidate (hok : r.invalidate c = .ok r') : ∃ log, r.Strokes log r' := by
  obtain ⟨-, rfl⟩ := invalidate_eq_ok hok
  exact Strokes.foldl (fun _ _ => strokes_bump _) _ r

theorem strokes_changeClass {change : Change β} (hok : r.changeClass c change = .ok r') :
    ∃ log, r.Strokes log r' := by
  unfold changeClass at hok
  split at hok
  · cases hok
  · next hmat =>
    cases materialize_eq_ok hmat
    exact strokes_then (strokes_ensureClass c)
      (strokes_then (strokes_mutate _ change) (strokes_invalidate hok))

theorem strokes_changeObject {obj : ObjectRef} {change : Change β}
    (hok : r.changeObject obj change = .ok r') : ∃ log, r.Strokes log r' := by
  unfold changeObject at hok
  split at hok
  · cases hok
  · cases hok
    exact strokes_then (strokes_ensureCell _ _) (strokes_mutate _ change)

theorem strokes_applyCategory {methods : List (MethodDecl β)}
    (hok : r.applyCategory c methods = .ok r') : ∃ log, r.Strokes log r' := by
  unfold applyCategory at hok
  split at hok
  · cases hok
  · next hmat =>
    cases materialize_eq_ok hmat
    exact strokes_then (strokes_ensureClass c)
      (strokes_then (Strokes.foldl (fun _ _ => strokes_mutate _ _) methods _)
        (strokes_invalidate hok))

theorem strokes_applyTrait {iface : ClassRef} (hok : r.applyTrait c iface = .ok r') :
    ∃ log, r.Strokes log r' := by
  unfold applyTrait at hok
  split at hok
  · cases hok
  · next h _ =>
    exact strokes_then ⟨_, .single (.declare h r.declared r.nextSerial)⟩ (strokes_invalidate hok)

theorem strokes_define {d : ClassHeader} {methods : List (MethodDecl β)}
    {p : ClassRef × Registry β} (hok : r.define d methods = .ok p) :
    ∃ log, r.Strokes log p.2 := by
  unfold define at hok
  split at hok
  · cases hok
  · cases hok
    exact ⟨_, .single (.declare _ _ _)⟩

end Registry

namespace Engine

variable {β : Type} {g : Engine β}

/-- Whatever is asked of an engine, its registry changes in strokes. -/
theorem strokes_perform (g : Engine β) (op : Operation β) :
    ∃ log, g.registry.Strokes log (g.perform op).registry := by
  -- the registry was changed by one of its own operations, or cells came into being
  rcases registry_perform g op with ⟨f, hf, hok⟩ | ⟨cs, hcs⟩
  · cases op with
    | define d methods =>
      cases hf
      obtain ⟨p, hp, heq⟩ := Registry.define_of_map hok
      exact heq ▸ Registry.strokes_define hp
    | changeClass => cases hf; exact Registry.strokes_changeClass hok
    | changeObject => cases hf; exact Registry.strokes_changeObject hok
    | applyCategory => cases hf; exact Registry.strokes_applyCategory hok
    | applyTrait => cases hf; exact Registry.strokes_applyTrait hok
    | invalidate => cases hf; exact Registry.strokes_invalidate hok
    | membersOf | versionOf =>
      cases hf
      rw [Registry.materialize_eq_ok hok]
      exact Registry.strokes_ensureClass _
    | _ => cases hf
  · rw [hcs]
    -- a resolution only brings cells into being, one stroke for each
    exact Registry.strokes_materializeAll cs

end Engine

/-! ## Guards -/

/-- The owners of the cells whose versions a guard for the receiver notes. -/
def Receiver.owners (receiver : Receiver) : List Owner :=
  .ofClass receiver.cls :: receiver.object?.toList.map .ofObject

namespace Guard

variable {β : Type} {r r' : Registry β} {receiver : Receiver}

theorem isCurrent_ofReceiver_iff : (Guard.ofReceiver r receiver).isCurrent r' ↔
    ∀ o ∈ receiver.owners, r'.version? o = some ((r.version? o).getD 0) := by
  rw [isCurrent_iff]
  cases receiver with
  | plain c => simp [ofReceiver, Receiver.owners, Receiver.object?]
  | own obj => simp [ofReceiver, Receiver.owners, Receiver.object?]

theorem ofReceiver_congr (hsame : ∀ o ∈ receiver.owners, r'.version? o = r.version? o) :
    Guard.ofReceiver r' receiver = .ofReceiver r receiver := by
  cases receiver with
  | plain c =>
    have hc := hsame (.ofClass c) (by simp [Receiver.owners, Receiver.cls])
    simp [ofReceiver, Receiver.object?, Receiver.cls, hc]
  | own obj =>
    have hc := hsame (.ofClass obj.cls) (by simp [Receiver.owners, Receiver.cls])
    have hobj := hsame (.ofObject obj) (by simp [Receiver.owners, Receiver.object?])
    simp [ofReceiver, Receiver.object?, Receiver.cls, hc, hobj]

end Guard

/-- A value is seen as an object only if that has members of its own. -/
theorem Receiver.hasOwnMembers_of_ofValue {β : Type} {r : Registry β} {v : Value} {obj : ObjectRef}
    (hobj : (ofValue r v).object? = some obj) : r.hasOwnMembers obj := by
  cases v with
  | object obj' =>
    simp only [ofValue] at hobj
    split at hobj
    · next h =>
      cases hobj
      exact h
    · cases hobj
  | _ => cases hobj

/-- The version of a cell that is there stays when cells of classes come into being. -/
theorem Registry.version?_materializeAll {β : Type} {r : Registry β} {o : Owner} {v : Nat}
    (hv : r.version? o = some v) (cs : List ClassRef) :
    (r.materializeAll cs).version? o = some v := by
  -- cells are created only where there is none yet, so this one stays
  induction cs generalizing r with
  | nil => exact hv
  | cons c rest ih =>
    rw [materializeAll_cons]
    apply ih
    obtain ⟨cell, hcell, rfl⟩ := Option.map_eq_some_iff.mp hv
    rw [version?, ensureClass_eq, cell?_ensureCell]
    split
    · next ho =>
      subst ho
      simp [hcell]
    · simp [hcell]

/-- A resolution that succeeds answers with a guard for its receiver, whose cells are there. -/
theorem Engine.guard_resolve {β : Type} {g : Engine β} {access : Access} {v : Value}
    {name : String} {args : List Value} {found : Resolution β}
    (hok : (g.resolve access v name args).1 = .ok found) :
    found.guard = .ofReceiver (g.perform (.resolve access v name args)).registry
        (.ofValue g.registry v) ∧
      ∀ o ∈ (Receiver.ofValue g.registry v).owners,
        ((g.perform (.resolve access v name args)).registry.version? o).isSome := by
  obtain ⟨-, hfound, -⟩ :=
    g.resolver.resolve_answer access (.ofValue g.registry v) name (.ofArgs args)
  obtain ⟨hguard, cs, hregistry⟩ := hfound found hok
  -- the cell of an object that has members of its own was there before
  have hthere : ∀ o ∈ (Receiver.ofValue g.registry v).owners, ∃ version,
      (g.registry.ensureClass (Receiver.ofValue g.registry v).cls).version? o = some version := by
    intro o ho
    rcases List.mem_cons.mp ho with rfl | ho
    · exact ⟨_, Resolver.version?_ensureClass _ _⟩
    · obtain ⟨obj, hobj, rfl⟩ := List.mem_map.mp ho
      have hown := Receiver.hasOwnMembers_of_ofValue (by simpa using hobj)
      obtain ⟨cell, hcell⟩ := Option.isSome_iff_exists.mp hown
      refine ⟨cell.version, ?_⟩
      rw [Registry.version?, Registry.cell?_ensureClass_ofObject, hcell]
      rfl
  have hafter : (g.perform (.resolve access v name args)).registry =
      (g.registry.ensureClass (Receiver.ofValue g.registry v).cls).materializeAll cs := hregistry
  rw [hafter]
  -- the resolution read the guard off the registry before the other cells came into being
  refine ⟨hguard.trans (Guard.ofReceiver_congr fun o ho => ?_), fun o ho => ?_⟩
  · obtain ⟨version, hversion⟩ := hthere o ho
    exact hversion.trans (Registry.version?_materializeAll hversion cs).symm
  · obtain ⟨version, hversion⟩ := hthere o ho
    rw [Registry.version?_materializeAll hversion cs]
    rfl

/-! ## Registries under one clock -/

/-- The registries of a process, which all read one clock. -/
structure Process (ι β : Type) where
  registries : ι → Registry β
  clock : Nat
  shared : ∀ i, (registries i).clock = clock

namespace Process

variable {ι β : Type} {p p' : Process ι β} {i : ι} {r r' : Registry β} {k : ι × Owner}
  {log : List (ι × Owner)}

/-- The version of a cell, which is the cell of an owner in one of the registries. -/
def version? (p : Process ι β) (k : ι × Owner) : Option Nat := (p.registries k.1).version? k.2

/-- No class but the builtin ones was declared, and no cell has come into being. -/
def initial : Process ι β := ⟨fun _ => .initial, Registry.initial.clock, fun _ => rfl⟩

section Runs

variable [DecidableEq ι]

/-- One registry is replaced, and the others read its clock. -/
def put (p : Process ι β) (i : ι) (r : Registry β) : Process ι β where
  registries j := if j = i then r else { p.registries j with clock := r.clock }
  clock := r.clock
  shared j := by split <;> rfl

theorem version?_put : (p.put i r).version? k =
    if k.1 = i then r.version? k.2 else p.version? k := by
  simp only [put, version?]
  split <;> rfl

theorem put_registries_self : (p.put i r).registries i = r := if_pos rfl

theorem put_self : p.put i (p.registries i) = p := by
  obtain ⟨registries, clock, hshared⟩ := p
  simp only [put, mk.injEq]
  refine ⟨?_, hshared i⟩
  funext j
  split
  · next h => rw [h]
  · rw [hshared i, ← hshared j]

theorem put_put : (p.put i r).put i r' = p.put i r' := by
  simp only [put, mk.injEq, and_true]
  funext j
  split <;> rfl

/-- Strokes of the registries of a process in any order, with the cells that were stamped anew. -/
inductive Run (p : Process ι β) : List (ι × Owner) → Process ι β → Prop
  | refl : Run p [] p
  | tail {log : List (ι × Owner)} {p' : Process ι β} {i : ι} {w : Option Owner} {r : Registry β}
      (before : Run p log p') (stroke : (p'.registries i).Stroke w r) :
      Run p (log ++ w.toList.map (i, ·)) (p'.put i r)

/-- What one registry does in strokes is a run of the process. -/
theorem Run.ofStrokes {owners : List Owner} (hs : (p.registries i).Strokes owners r) :
    p.Run (owners.map (i, ·)) (p.put i r) := by
  induction hs with
  | refl =>
    rw [put_self]
    exact .refl
  | @tail owners r' r'' w _ stroke ih =>
    rw [List.map_append, ← put_put (r := r')]
    refine ih.tail ?_
    rwa [put_registries_self]

theorem Run.trans {p'' : Process ι β} {log' : List (ι × Owner)} (h : p.Run log p')
    (h' : p'.Run log' p'') : p.Run (log ++ log') p'' := by
  induction h' with
  | refl => simpa using h
  | tail _ stroke ih =>
    rw [← List.append_assoc]
    exact ih.tail stroke

end Runs

/-! ### Stamps in a run -/

/-- No stamp exceeds the clock, and no two cells have the same. -/
structure Distinct (p : Process ι β) : Prop where
  le_clock : ∀ {k v}, p.version? k = some v → v ≤ p.clock
  unique : ∀ {k k' v}, p.version? k = some v → p.version? k' = some v → k = k'

theorem Distinct.initial : (initial : Process ι β).Distinct where
  le_clock hv := by cases hv
  unique hv := by cases hv

/-- What became of the stamps of a process: those in a list of cells were replaced, by later ones,
and all others were kept. -/
structure Since (p : Process ι β) (log : List (ι × Owner)) (p' : Process ι β) : Prop where
  clock : p.clock ≤ p'.clock
  kept : ∀ {k v}, p.version? k = some v → k ∉ log → p'.version? k = some v
  old : ∀ {k v}, p'.version? k = some v → v ≤ p.clock → p.version? k = some v ∧ k ∉ log
  grown : ∀ {k v}, p.version? k = some v → ∃ v', p'.version? k = some v' ∧ (v' = v ∨ p.clock < v')

theorem Since.refl (p : Process ι β) : p.Since [] p where
  clock := Nat.le_refl _
  kept hv _ := hv
  old hv _ := ⟨hv, by simp⟩
  grown hv := ⟨_, hv, .inl rfl⟩

/-- A stamp that is found again is where it was, and was not replaced in between. -/
theorem Since.eq_of_version? (hp : p.Distinct) (h : p.Since log p') {k' : ι × Owner} {v : Nat}
    (hv : p.version? k = some v) (hv' : p'.version? k' = some v) : k' = k ∧ k ∉ log := by
  obtain ⟨hold, hk'⟩ := h.old hv' (hp.le_clock hv)
  obtain rfl : k' = k := hp.unique hold hv
  exact ⟨rfl, hk'⟩

theorem Since.version?_iff (hp : p.Distinct) (h : p.Since log p') {v : Nat}
    (hv : p.version? k = some v) : p'.version? k = some v ↔ k ∉ log :=
  ⟨fun hv' => (h.eq_of_version? hp hv hv').2, h.kept hv⟩

/-- A guard is current until one of the cells is stamped anew whose versions it notes. -/
theorem Since.isCurrent_iff (hp : p.Distinct) (h : p.Since log p') {receiver : Receiver}
    (hpresent : ∀ o ∈ receiver.owners, (p.version? (i, o)).isSome) :
    (Guard.ofReceiver (p.registries i) receiver).isCurrent (p'.registries i) ↔
      ∀ o ∈ receiver.owners, (i, o) ∉ log := by
  rw [Guard.isCurrent_ofReceiver_iff]
  apply forall₂_congr
  intro o ho
  obtain ⟨v, hv⟩ := Option.isSome_iff_exists.mp (hpresent o ho)
  have hv₀ : (p.registries i).version? o = some v := hv
  rw [hv₀]
  exact h.version?_iff hp hv

variable [DecidableEq ι]

/-- What a stroke of one registry does to the stamps of all. -/
theorem stamps_put {w : Option Owner} (hs : (p.registries i).Stroke w r) :
    (w = none ∧ (p.put i r).clock = p.clock ∧ ∀ k, (p.put i r).version? k = p.version? k) ∨
      ∃ k, (p.put i r).clock = p.clock + 1 ∧
        (k ∈ w.toList.map (i, ·) ∧ (p.version? k).isSome ∨ w = none ∧ p.version? k = none) ∧
        ∀ k', (p.put i r).version? k' = if k = k' then some (p.clock + 1) else p.version? k' := by
  -- a stroke of one registry, seen from the process: its owners are told apart by the registry
  rcases hs.stamps with ⟨hw, hclock, hsame⟩ | ⟨o, hclock, hw, hset⟩
  · refine .inl ⟨hw, hclock.trans (p.shared i), fun k => ?_⟩
    rw [version?_put]
    split
    · next hk => rw [hsame, version?, hk]
    · rfl
  · rw [p.shared i] at hclock hset
    refine .inr ⟨(i, o), hclock, ?_, fun k => ?_⟩
    · exact hw.imp (fun ⟨hw, hsome⟩ => ⟨by simp [hw], hsome⟩) id
    · obtain ⟨j, o'⟩ := k
      rw [version?_put]
      by_cases hj : j = i
      · subst hj
        simp [hset, version?]
      · have hne : (i, o) ≠ (j, o') := fun h => hj (congrArg Prod.fst h).symm
        rw [if_neg hj, if_neg hne]

theorem Distinct.put (hp : p.Distinct) {w : Option Owner} (hs : (p.registries i).Stroke w r) :
    (p.put i r).Distinct := by
  -- if the clock stands still, all versions are those of before
  rcases stamps_put hs with ⟨-, hclock, hsame⟩ | ⟨k₀, hclock, -, hset⟩
  · refine ⟨fun {k v} hv => ?_, fun {k k' v} hv hv' => ?_⟩
    · rw [hclock]
      exact hp.le_clock (hsame k ▸ hv)
    · exact hp.unique (hsame k ▸ hv) (hsame k' ▸ hv')
  · -- the new stamp exceeds all others, so it is in one place only
    have hold : ∀ {k}, p.version? k ≠ some (p.clock + 1) := by
      intro k hk
      have := hp.le_clock hk
      omega
    -- for two places with one stamp, it is the new one in both, or old in both
    refine ⟨fun {k v} hv => ?_, fun {k k' v} hv hv' => ?_⟩
    · rw [hset] at hv
      rw [hclock]
      split at hv
      · cases hv
        exact Nat.le_refl _
      · exact Nat.le_succ_of_le (hp.le_clock hv)
    · rw [hset] at hv hv'
      split at hv <;> split at hv'
      · next hk hk' => rw [← hk, hk']
      · cases hv
        exact absurd hv' hold
      · cases hv'
        exact absurd hv hold
      · exact hp.unique hv hv'

theorem Run.distinct (hp : p.Distinct) (hrun : p.Run log p') : p'.Distinct := by
  induction hrun with
  | refl => exact hp
  | tail _ stroke ih => exact ih.put stroke

theorem Since.tail (h : p.Since log p') {w : Option Owner}
    (hs : (p'.registries i).Stroke w r) :
    p.Since (log ++ w.toList.map (i, ·)) (p'.put i r) := by
  -- the three parts of the invariant are carried on separately, by whether a cell got the new stamp
  rcases stamps_put hs with ⟨rfl, hclock, hsame⟩ | ⟨k₀, hclock, hw, hset⟩
  · simp only [Option.toList_none, List.map_nil, List.append_nil]
    exact
      { clock := hclock ▸ h.clock
        kept := fun hv hk => (hsame _).trans (h.kept hv hk)
        old := fun hv hle => h.old (hsame _ ▸ hv) hle
        grown := fun hv => (h.grown hv).imp fun v' hv' => ⟨(hsame _).trans hv'.1, hv'.2⟩ }
  · have hnew := h.clock
    refine ⟨by omega, fun {k v} hv hk => ?_, fun {k v} hv hle => ?_, fun {k v} hv => ?_⟩
    · -- a cell outside the list was there, so it is not the one that got the stamp
      have hv' := h.kept hv fun hmem => hk (List.mem_append_left _ hmem)
      rw [hset, if_neg]
      · exact hv'
      · rintro rfl
        rcases hw with ⟨hmem, -⟩ | ⟨-, hnone⟩
        · exact hk (List.mem_append_right _ hmem)
        · rw [hv'] at hnone
          cases hnone
    -- an old stamp was not given by this stroke, so its cell was neither listed before nor now
    · rw [hset] at hv
      split at hv
      · cases hv
        omega
      · next hne =>
        obtain ⟨hv', hk⟩ := h.old hv hle
        refine ⟨hv', fun hmem => ?_⟩
        rcases List.mem_append.mp hmem with hmem | hmem
        · exact hk hmem
        · rcases hw with ⟨hk₀, -⟩ | ⟨rfl, -⟩
          · -- a stroke stamps one cell
            obtain ⟨o, ho, rfl⟩ := List.mem_map.mp hk₀
            obtain ⟨o', ho', rfl⟩ := List.mem_map.mp hmem
            simp only [Option.mem_toList] at ho ho'
            exact hne (by rw [Option.mem_unique ho ho'])
          · cases hmem
    -- a cell that was stamped anew has a later stamp than any of before
    · obtain ⟨v', hv', hor⟩ := h.grown hv
      rw [hset]
      split
      · exact ⟨_, rfl, .inr (by omega)⟩
      · exact ⟨v', hv', hor⟩

theorem Run.since (hrun : p.Run log p') : p.Since log p' := by
  induction hrun with
  | refl => exact .refl p
  | tail _ stroke ih => exact ih.tail stroke

/-- Stamps never exceed the clock, are distinct at all times, and only grow. A stamp that a cell
had is not found in another one later, nor in the same one after it was replaced. So a guard that
was made when its cells were there is current as long as none of them was stamped anew. Whatever
is asked of an engine that holds one of the registries goes on with the run, and its resolutions
answer with such guards. -/
theorem run_stamps {log₀ : List (ι × Owner)} (hbefore : (initial : Process ι β).Run log₀ p)
    (hrun : p.Run log p') :
    (∀ k v, p.version? k = some v → v ≤ p.clock) ∧
      (∀ k k' v, p.version? k = some v → p.version? k' = some v → k = k') ∧
      (∀ k v, p.version? k = some v →
        ∃ v', p'.version? k = some v' ∧ v ≤ v' ∧ (v' = v ↔ k ∉ log)) ∧
      (∀ k k' v, p.version? k = some v → p'.version? k' = some v → k' = k ∧ k ∉ log) ∧
      (∀ i receiver, (∀ o ∈ Receiver.owners receiver, (p.version? (i, o)).isSome) →
        ((Guard.ofReceiver (p.registries i) receiver).isCurrent (p'.registries i) ↔
          ∀ o ∈ receiver.owners, (i, o) ∉ log)) ∧
      ∀ (g : Engine β) i, g.registry = p'.registries i →
        (∀ op, ∃ more, p.Run (log ++ more) (p'.put i (g.perform op).registry)) ∧
        ∀ access v name args found, (g.resolve access v name args).1 = .ok found →
          found.guard = .ofReceiver (g.perform (.resolve access v name args)).registry
              (.ofValue g.registry v) ∧
            ∀ o ∈ (Receiver.ofValue g.registry v).owners,
              ((g.perform (.resolve access v name args)).registry.version? o).isSome := by
  have hp := hbefore.distinct .initial
  have hsince := hrun.since
  refine ⟨fun k v hv => hp.le_clock hv, fun k k' v hv hv' => hp.unique hv hv', ?_, ?_, ?_, ?_⟩
  -- the version at the end is the old one exactly if its cell was not stamped in between
  · intro k v hv
    obtain ⟨v', hv', hor⟩ := hsince.grown hv
    have hle := hp.le_clock hv
    refine ⟨v', hv', by omega, ?_⟩
    rw [← hsince.version?_iff hp hv, hv', Option.some.injEq]
  · exact fun k k' v hv hv' => hsince.eq_of_version? hp hv hv'
  · exact fun i receiver hpresent => hsince.isCurrent_iff hp hpresent
  -- each operation of an engine is some strokes of its registry, put after those of the run
  · intro g i hg
    refine ⟨fun op => ?_, fun access v name args found hok => Engine.guard_resolve hok⟩
    obtain ⟨owners, hstrokes⟩ := g.strokes_perform op
    rw [hg] at hstrokes
    exact ⟨_, hrun.trans (.ofStrokes hstrokes)⟩

/-- Two registries of one process, each with one cell. -/
def sampleCells : Process Bool Unit :=
  (initial.put false (Registry.initial.ensureClass .int)).put true
    ({ Registry.initial with clock := 2 }.ensureClass .number)

/-- The cell of the first registry is stamped anew. -/
def sampleStale : Process Bool Unit :=
  sampleCells.put false ((sampleCells.registries false).bump (.ofClass .int))

/-- A guard for the class in the first registry is stale then, and one for the class in the second
is not. -/
theorem run_stamps_sampleStale :
    (initial : Process Bool Unit).Run [] sampleCells ∧
      sampleCells.Run [(false, .ofClass .int)] sampleStale ∧
      ¬ (Guard.ofReceiver (sampleCells.registries false) (.plain .int)).isCurrent
        (sampleStale.registries false) ∧
      (Guard.ofReceiver (sampleCells.registries true) (.plain .number)).isCurrent
        (sampleStale.registries true) := by
  have hbefore : (initial : Process Bool Unit).Run [] sampleCells := by
    have hfirst : (initial : Process Bool Unit).Run []
        (initial.put false (Registry.initial.ensureClass .int)) :=
      Run.tail .refl (w := none) (.create _ rfl)
    exact hfirst.tail (w := none) (.create _ rfl)
  have hrun : sampleCells.Run [(false, .ofClass .int)] sampleStale :=
    Run.tail .refl (w := some (.ofClass .int)) (.bump rfl)
  obtain ⟨-, -, -, -, hguard, -⟩ := run_stamps hbefore hrun
  refine ⟨hbefore, hrun, ?_, ?_⟩
  · rw [hguard false (.plain .int) (by decide)]
    decide
  · rw [hguard true (.plain .number) (by decide)]
    decide

end Process

end LateBinding
