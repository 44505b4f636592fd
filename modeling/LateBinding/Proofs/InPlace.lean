import LateBinding.Proofs.Absorption
import LateBinding.Proofs.TwinEngines

/-!
# Operations in place

An operation of an engine yields a new registry or an error, so a failed one cannot leave traces. A
program that works on the one registry that is there can: what it changed before it fails stays
changed. Here the operations are written as such programs, step by step in the order in which they
check, bring cells into being, change members and stamp cells, and are shown to leave no traces
all the same.

* `InPlace`: programs on a registry that keep what they did when they fail.
* `Demand`: what can be asked of classes and members, each with its program.
* `Engine.inPlace_demand`: in a reachable engine, a program does what the operation does.
* `Engine.failed_in_place`: so a program that fails leaves the engine as it was, and so does asking
  for a call site under a number that is taken.
-/

namespace LateBinding

/-- A program on a registry. What it did before it failed remains done. -/
abbrev InPlace (β α : Type) := ExceptT DispatchError (StateM (Registry β)) α

namespace InPlace

variable {β α γ : Type}

/-- Run a program: its answer, and the registry as it leaves it. -/
def exec (prog : InPlace β α) (r : Registry β) : Except DispatchError α × Registry β :=
  prog.run.run r

def look (f : Registry β → α) : InPlace β α := do return f (← get)

def change (f : Registry β → Registry β) : InPlace β Unit := modify f

/-- Look at something that may be wrong. -/
def require (f : Registry β → Except DispatchError α) : InPlace β α := do
  match f (← get) with
  | .ok a => return a
  | .error e => throw e

/-! ## Programs -/

/-- The cell of a class comes into being, unless it is there. -/
def cell (c : ClassRef) : InPlace β Unit := do
  if ← look fun r => (r.cell? (.ofClass c)).isSome then return
  let _ ← require fun r => r.hierarchy.find c
  change fun r => r.ensureClass c

/-- The cells of a class and its heirs are stamped anew, one by one. -/
def invalidate (c : ClassRef) : InPlace β Unit := do
  let _ ← require fun r => r.hierarchy.find c
  let heirs ← look fun r => r.hierarchy.descendants c
  forM heirs fun d => change fun r => r.bump (.ofClass d)

def define (d : ClassHeader) (methods : List (MethodDecl β)) : InPlace β ClassRef := do
  let own ← look fun r => ⟨r.hierarchy.size⟩
  let h ← require fun r => r.hierarchy.define d
  change fun r => { r with
    hierarchy := h
    declared := r.declared.push (Registry.number r.nextSerial methods)
    nextSerial := r.nextSerial + methods.length }
  return own

def changeClass (c : ClassRef) (what : Change β) : InPlace β Unit := do
  cell c
  change fun r => r.mutate (.ofClass c) what
  invalidate c

def changeObject (o : ObjectRef) (what : Change β) : InPlace β Unit := do
  let _ ← require fun r => r.hierarchy.find o.cls
  change fun r => r.ensureCell (.ofObject o) (.empty (.ofObject o))
  change fun r => r.mutate (.ofObject o) what

/-- The methods are added one by one, each under a stamp of its own. -/
def applyCategory (c : ClassRef) (methods : List (MethodDecl β)) : InPlace β Unit := do
  cell c
  forM methods fun d => change fun r => r.mutate (.ofClass c) (.addCategoryMethod d)
  invalidate c

def applyTrait (c iface : ClassRef) : InPlace β Unit := do
  let h ← require fun r => r.hierarchy.withInterface c iface
  change fun r => { r with hierarchy := h }
  invalidate c

def membersOf (c : ClassRef) : InPlace β (MemberTable β) := do
  cell c
  look fun r => r.members c

def versionOf (c : ClassRef) : InPlace β Nat := do
  cell c
  look fun r => (r.version? (.ofClass c)).getD 0

/-! ## Running programs -/

section Exec

variable {r : Registry β}

@[simp] theorem exec_pure (a : α) : exec (pure a) r = (.ok a, r) := rfl

@[simp] theorem exec_look (f : Registry β → α) : (look f).exec r = (.ok (f r), r) := rfl

@[simp] theorem exec_change (f : Registry β → Registry β) : (change f).exec r = (.ok (), f r) := rfl

@[simp] theorem exec_bind (prog : InPlace β α) (next : α → InPlace β γ) :
    (prog >>= next).exec r = match prog.exec r with
      | (.ok a, r') => (next a).exec r'
      | (.error e, r') => (.error e, r') := by
  unfold exec
  rw [ExceptT.run_bind, StateT.run_bind]
  rcases prog.run.run r with ⟨_ | _, _⟩ <;> rfl

@[simp] theorem exec_require (f : Registry β → Except DispatchError α) :
    (require f).exec r = (f r, r) := by
  unfold require
  rw [exec_bind]
  show exec (match f r with | .ok a => pure a | .error e => throw e) r = _
  cases f r <;> rfl

@[simp] theorem exec_forM {ι : Type} (f : ι → Registry β → Registry β) (l : List ι) :
    (forM l fun a => change (f a) : InPlace β Unit).exec r =
      (.ok (), l.foldl (fun r a => f a r) r) := by
  induction l generalizing r with
  | nil => rfl
  | cons a rest ih =>
    rw [List.forM_cons, exec_bind, exec_change]
    exact ih

end Exec

/-- The program yields in `r` what an operation on registries yields, and leaves `r` as it is where
the operation fails. -/
def Does (prog : InPlace β α) (op : Registry β → Except DispatchError (α × Registry β))
    (r : Registry β) : Prop :=
  prog.exec r = match op r with
    | .ok (a, r') => (.ok a, r')
    | .error e => (.error e, r)

/-- The same for an operation without an answer. -/
def Does' (prog : InPlace β Unit) (op : Registry β → Except DispatchError (Registry β))
    (r : Registry β) : Prop :=
  Does prog (fun r => (op r).map ((), ·)) r

section

variable {r r' : Registry β} {prog : InPlace β Unit}
  {op : Registry β → Except DispatchError (Registry β)} {e : DispatchError} {c : ClassRef}

theorem Does'.exec_ok (h : Does' prog op r) (hok : op r = .ok r') : prog.exec r = (.ok (), r') := by
  rw [Does', Does, hok] at h
  exact h

theorem Does'.exec_error (h : Does' prog op r) (herror : op r = .error e) :
    prog.exec r = (.error e, r) := by
  rw [Does', Does, herror] at h
  exact h

theorem does'_of_ok (r' : Registry β) (hok : op r = .ok r') (hexec : prog.exec r = (.ok (), r')) :
    Does' prog op r := by
  rw [Does', Does, hok]
  exact hexec

theorem does'_of_error (herror : op r = .error e) (hexec : prog.exec r = (.error e, r)) :
    Does' prog op r := by
  rw [Does', Does, herror]
  exact hexec

theorem does_cell : Does' (cell c) (·.materialize c) r := by
  -- there is a cell, or none but a declared class, or no class at all
  cases hcell : r.cell? (.ofClass c) with
  | some _ =>
    apply does'_of_ok r
    · simp [Registry.materialize, hcell]
    · simp [cell, hcell]
  | none =>
    cases hfind : r.hierarchy.find c with
    | error e =>
      apply does'_of_error (e := e)
      · simp [Registry.materialize, hcell, hfind]
      · simp [cell, hcell, hfind]
    | ok info =>
      apply does'_of_ok (r.ensureClass c)
      · simp [Registry.materialize, hcell, hfind]
      · simp [cell, hcell, hfind]

theorem does_invalidate : Does' (invalidate c) (·.invalidate c) r := by
  cases hfind : r.hierarchy.find c with
  | error e =>
    apply does'_of_error (e := e)
    · simp [Registry.invalidate, hfind]
    · simp [invalidate, hfind]
  | ok info =>
    apply does'_of_ok (r.bumpAll (r.hierarchy.descendants c))
    · simp [Registry.invalidate, hfind]
    · simp [invalidate, hfind, Registry.bumpAll]

/-- A declared class can be declared stale, so an operation that comes that far succeeds. -/
theorem invalidate_of_declares (hc : r.hierarchy.Declares c) :
    r.invalidate c = .ok (r.bumpAll (r.hierarchy.descendants c)) := by
  obtain ⟨info, hfind⟩ := hc.find
  simp [Registry.invalidate, hfind]

theorem does_changeClass (hr : r.Housed) (what : Change β) :
    Does' (changeClass c what) (·.changeClass c what) r := by
  -- the cell comes first and is not undone, so what may fail later has to be ruled out
  cases hmat : r.materialize c with
  | error e =>
    apply does'_of_error (e := e)
    · simp [Registry.changeClass, hmat]
    · simp [changeClass, does_cell.exec_error hmat]
  | ok r₁ =>
    -- there is a cell, so the class is declared and the last check passes
    obtain rfl := Registry.materialize_eq_ok hmat
    -- methods change no links, so the class is still declared when it is invalidated
    have hext := (Registry.extends_mutate (o := .ofClass c) what).trans
      (Registry.extends_ensureClass (r := r) (c := c))
    have hinv := invalidate_of_declares (hext.hierarchy ▸ (hr.materialize hmat).2)
    apply does'_of_ok
    · simp only [Registry.changeClass, hmat]
      exact hinv
    · simp [changeClass, does_cell.exec_ok hmat, does_invalidate.exec_ok hinv]

theorem does_changeObject (o : ObjectRef) (what : Change β) :
    Does' (changeObject o what) (·.changeObject o what) r := by
  cases hfind : r.hierarchy.find o.cls with
  | error e =>
    apply does'_of_error (e := e)
    · simp [Registry.changeObject, hfind]
    · simp [changeObject, hfind]
  | ok info =>
    apply does'_of_ok
    · simp only [Registry.changeObject, hfind]
      rfl
    · simp [changeObject, hfind]

theorem does_applyCategory (hr : r.Housed) (methods : List (MethodDecl β)) :
    Does' (applyCategory c methods) (·.applyCategory c methods) r := by
  cases hmat : r.materialize c with
  | error e =>
    apply does'_of_error (e := e)
    · simp [Registry.applyCategory, hmat]
    · simp [applyCategory, does_cell.exec_error hmat]
  | ok r₁ =>
    -- several methods are put in, one after another, and none of them changes a link
    obtain rfl := Registry.materialize_eq_ok hmat
    have hext := (Registry.extends_foldl (fun _ d => Registry.extends_mutate (o := .ofClass c)
      (.addCategoryMethod d)) methods (r.ensureClass c)).trans Registry.extends_ensureClass
    have hinv := invalidate_of_declares (hext.hierarchy ▸ (hr.materialize hmat).2)
    apply does'_of_ok
    · simp only [Registry.applyCategory, hmat]
      exact hinv
    · simp [applyCategory, does_cell.exec_ok hmat, does_invalidate.exec_ok hinv]

theorem does_applyTrait (iface : ClassRef) :
    Does' (applyTrait c iface) (·.applyTrait c iface) r := by
  -- the one check that can fail comes before anything is written
  cases hmix : r.hierarchy.withInterface c iface with
  | error e =>
    apply does'_of_error (e := e)
    · simp [Registry.applyTrait, hmix]
    · simp [applyTrait, hmix]
  | ok h =>
    have hc : h.Declares c := by
      rw [Hierarchy.Declares, Hierarchy.size_withInterface hmix]
      exact (Hierarchy.withInterface_eq_ok hmix).1.declares
    have hinv := invalidate_of_declares (r := { r with hierarchy := h }) hc
    apply does'_of_ok
    · simp only [Registry.applyTrait, hmix]
      exact hinv
    · simp [applyTrait, hmix, does_invalidate.exec_ok hinv]

theorem does_define (d : ClassHeader) (methods : List (MethodDecl β)) :
    Does (define d methods) (·.define d methods) r := by
  cases hdefine : r.hierarchy.define d with
  | error e => simp [Does, define, Registry.define, hdefine]
  | ok h =>
    simp only [Does, define, Registry.define, exec_bind, exec_look, exec_require, exec_change,
      exec_pure, hdefine]

theorem does_membersOf :
    Does (membersOf c) (fun r => (r.materialize c).map fun r => (r.members c, r)) r := by
  cases hmat : r.materialize c with
  | error e => simp [Does, membersOf, hmat, does_cell.exec_error hmat, Except.map]
  | ok r' => simp [Does, membersOf, hmat, does_cell.exec_ok hmat, Except.map]

theorem does_versionOf : Does (versionOf c)
    (fun r => (r.materialize c).map fun r => ((r.version? (.ofClass c)).getD 0, r)) r := by
  cases hmat : r.materialize c with
  | error e => simp [Does, versionOf, hmat, does_cell.exec_error hmat, Except.map]
  | ok r' => simp [Does, versionOf, hmat, does_cell.exec_ok hmat, Except.map]

end

end InPlace

/-! ## What can be asked of classes and members -/

/-- An operation on classes or members, by what it answers. -/
inductive Demand (β : Type) : Type → Type
  | define (d : ClassHeader) (methods : List (MethodDecl β)) : Demand β ClassRef
  | changeClass (c : ClassRef) (what : Change β) : Demand β Unit
  | changeObject (o : ObjectRef) (what : Change β) : Demand β Unit
  | applyCategory (c : ClassRef) (methods : List (MethodDecl β)) : Demand β Unit
  | applyTrait (c iface : ClassRef) : Demand β Unit
  | invalidate (c : ClassRef) : Demand β Unit
  | membersOf (c : ClassRef) : Demand β (MemberTable β)
  | versionOf (c : ClassRef) : Demand β Nat

namespace Demand

variable {β α : Type}

/-- The program that meets a demand in place. -/
def program {α : Type} : Demand β α → InPlace β α
  | define d methods => .define d methods
  | changeClass c what => .changeClass c what
  | changeObject o what => .changeObject o what
  | applyCategory c methods => .applyCategory c methods
  | applyTrait c iface => .applyTrait c iface
  | invalidate c => .invalidate c
  | membersOf c => .membersOf c
  | versionOf c => .versionOf c

/-- The operation of an engine that meets a demand. -/
def meet {α : Type} (g : Engine β) : Demand β α → Except DispatchError α × Engine β
  | define d methods => g.define d methods
  | changeClass c what => g.changeClass c what
  | changeObject o what => g.changeObject o what
  | applyCategory c methods => g.applyCategory c methods
  | applyTrait c iface => g.applyTrait c iface
  | invalidate c => g.invalidate c
  | membersOf c => g.membersOf c
  | versionOf c => g.versionOf c

/-- An operation that fails changes nothing. -/
theorem meet_error {g : Engine β} {e : DispatchError} {d : Demand β α}
    (he : (d.meet g).1 = .error e) : (d.meet g).2 = g := by
  -- all demands come down to an operation that answers with a new registry or an error
  have hkept : ∀ {γ : Type} (op : Registry β → Except DispatchError (γ × Registry β)),
      (g.onRegistry op).1 = .error e → (g.onRegistry op).2 = g := by
    intro γ op he
    unfold Engine.onRegistry at he ⊢
    split at he
    · rfl
    · cases he
  cases d with
  | define | changeClass | changeObject | applyCategory | applyTrait | invalidate | membersOf
    | versionOf => exact hkept _ he

end Demand

/-- The site comes of another one by calls through it and resets. -/
inductive Site.Becomes {β : Type} (s : Site β) : Site β → Prop
  | refl : Becomes s s
  | call {s' : Site β} (h : Becomes s s') (p : Policy) (q : Resolver β) (receiver : Value)
      (args : List Value) : Becomes s (s'.dispatch p q receiver args).2.1
  | reset {s' : Site β} (h : Becomes s s') : Becomes s s'.reset

/-- Neither changes what the site is for. -/
theorem Site.Becomes.member {β : Type} {s s' : Site β} (h : s.Becomes s') :
    s'.access = s.access ∧ s'.name = s.name := by
  induction h with
  | refl => exact ⟨rfl, rfl⟩
  | call _ p q receiver args ih =>
    exact ⟨Site.member_dispatch.1.trans ih.1, Site.member_dispatch.2.trans ih.2⟩
  | reset _ ih => exact ih

namespace Engine

variable {β α : Type} {g g' : Engine β} {access : Access} {name : String} {id : Nat}

/-- Run a program on the registry of an engine. -/
def inPlace (g : Engine β) (prog : InPlace β α) : Except DispatchError α × Engine β :=
  ((prog.exec g.registry).1, g.withRegistry (prog.exec g.registry).2)

theorem inPlace_of_does {prog : InPlace β α}
    {op : Registry β → Except DispatchError (α × Registry β)} (h : prog.Does op g.registry) :
    g.inPlace prog = g.onRegistry op := by
  rw [inPlace, h, onRegistry]
  cases op g.registry <;> rfl

/-- Step by step on the one registry, a demand is met as by the operation that yields a new one. -/
theorem inPlace_demand (hg : g.Reachable) (d : Demand β α) : g.inPlace d.program = d.meet g := by
  cases d with
  | define d methods => exact inPlace_of_does (InPlace.does_define d methods)
  | changeClass c what => exact inPlace_of_does (InPlace.does_changeClass hg.housed what)
  | changeObject o what => exact inPlace_of_does (InPlace.does_changeObject o what)
  | applyCategory c methods => exact inPlace_of_does (InPlace.does_applyCategory hg.housed methods)
  | applyTrait c iface => exact inPlace_of_does (InPlace.does_applyTrait iface)
  | invalidate c => exact inPlace_of_does InPlace.does_invalidate
  | membersOf c => exact inPlace_of_does InPlace.does_membersOf
  | versionOf c => exact inPlace_of_does InPlace.does_versionOf

/-! ### Call sites -/

/-- Ask for a site in place: it is created if there is none, and only then compared with what was
asked for. -/
def openInPlace (g : Engine β) (id : Nat) (access : Access) (name : String) :
    Except DispatchError (Site β) × Engine β :=
  let s := (g.sites.get? (.numbered id)).getD (.create id access name g.settings.cacheCapacity)
  let g := if (g.sites.get? (.numbered id)).isSome then g
    else { g with sites := g.sites.insert (.numbered id) s }
  if s.access ≠ access ∨ s.name ≠ name then
    (.error (.siteConflict id (s.access, s.name) (access, name)), g)
  else (.ok s, g)

theorem openInPlace_eq : g.openInPlace id access name = g.openSite id access name := by
  unfold openInPlace openSite
  cases hs : g.sites.get? (.numbered id) with
  | none => simp [Site.create]
  | some s =>
    by_cases hsame : s.access = access ∧ s.name = name
    · simp [hsame]
    · simp [hsame, ← not_and_or]

/-- A site is refused only if another one has its number. -/
theorem openSite_error {e : DispatchError} (he : (g.openSite id access name).1 = .error e) :
    ∃ s, g.sites.get? (.numbered id) = some s ∧ (s.access, s.name) ≠ (access, name) ∧
      e = .siteConflict id (s.access, s.name) (access, name) ∧
        (g.openSite id access name).2 = g := by
  unfold openSite at he ⊢
  cases hs : g.sites.get? (.numbered id) with
  -- the number is free, taken by the same site, or taken by another one
  | none =>
    rw [hs] at he
    cases he
  | some s =>
    by_cases hsame : s.access = access ∧ s.name = name
    · simp [hs, hsame] at he
    · simp only [hs, if_neg hsame] at he
      cases he
      exact ⟨s, rfl, by simpa using hsame, rfl, by simp [hsame]⟩

/-- A site that is asked for as what it is for is answered, and nothing changes. -/
theorem openSite_of_site {s : Site β} (hs : g.sites.get? (.numbered id) = some s) :
    g.openSite id s.access s.name = (.ok s, g) := by
  simp [openSite, hs]

/-- A site that is not dropped is the one that was there, after calls and resets. -/
theorem Run.becomes (hg : g.Reachable) {key : SiteKey} {s : Site β}
    (hrun : Run (fun _ op => op ≠ .drop key) g g') (hs : g.sites.get? key = some s) :
    ∃ s', g'.sites.get? key = some s' ∧ s.Becomes s' := by
  -- that the site is there, as whatever it became, is an invariant of the run
  suffices hinv : g'.Reachable ∧ ∃ s', g'.sites.get? key = some s' ∧ s.Becomes s' from hinv.2
  refine hrun.preserves (P := fun g => g.Reachable ∧ ∃ s', g.sites.get? key = some s' ∧
    s.Becomes s') ?_ ⟨hg, s, hs, .refl⟩
  rintro g op hop ⟨hg, s₁, hs₁, hbecomes⟩
  obtain ⟨s₂, hs₂⟩ := exists_site_perform hs₁ hop
  refine ⟨hg.perform trivial, s₂, hs₂, ?_⟩
  rcases sites_perform hg.unused hs₂ with ⟨s₀, hs₀, hmoves⟩ | ⟨hnone, -⟩
  -- it was there, so it was not created by this step
  · rw [hs₁] at hs₀
    cases hs₀
    cases hmoves with
    | rest => exact hbecomes
    | call => exact hbecomes.call _ _ _ _
    | reset => exact hbecomes.reset
  · rw [hs₁] at hnone
    cases hnone

/-- A demand that is not met in place leaves the whole engine as it was. Asking for a site under a
number that is taken by another one creates no site and leaves all as they were, and as long as
that site is there, asking for what it is for answers it. -/
theorem failed_in_place (hg : g.Reachable) :
    (∀ (α : Type) (d : Demand β α), g.inPlace d.program = d.meet g ∧
      ∀ e, (g.inPlace d.program).1 = .error e → (g.inPlace d.program).2 = g) ∧
    ∀ id access name, g.openInPlace id access name = g.openSite id access name ∧
      ∀ e, (g.openInPlace id access name).1 = .error e →
        (g.openInPlace id access name).2 = g ∧
        ∃ s, g.sites.get? (.numbered id) = some s ∧ (s.access, s.name) ≠ (access, name) ∧
          e = .siteConflict id (s.access, s.name) (access, name) ∧
          ∀ g', Run (fun _ op => op ≠ .drop (.numbered id)) g g' →
            ∃ s', g'.sites.get? (.numbered id) = some s' ∧ s.Becomes s' ∧
              g'.openSite id s.access s.name = (.ok s', g') := by
  refine ⟨fun α d => ⟨inPlace_demand hg d, fun e he => ?_⟩, fun id access name =>
    ⟨openInPlace_eq, fun e he => ?_⟩⟩
  · rw [inPlace_demand hg d] at he ⊢
    exact d.meet_error he
  · rw [openInPlace_eq] at he ⊢
    obtain ⟨s, hs, hne, rfl, hsame⟩ := openSite_error he
    -- the site that is in the way stays what it is for, so it is found again
    refine ⟨hsame, s, hs, hne, rfl, fun g' hrun => ?_⟩
    obtain ⟨s', hs', hbecomes⟩ := hrun.becomes hg hs
    refine ⟨s', hs', hbecomes, ?_⟩
    rw [← hbecomes.member.1, ← hbecomes.member.2]
    exact openSite_of_site hs'

/-- A trait is refused to itself, a category to a class that is not declared, and a number to a
second site. -/
theorem failed_in_place_sampleCall :
    (∃ e, (sampleCall.inPlace (Demand.applyTrait ⟨8⟩ ⟨8⟩).program).1 = .error e) ∧
      (sampleCall.inPlace (Demand.applyTrait ⟨8⟩ ⟨8⟩).program).2 = sampleCall ∧
      (∃ e, (sampleCall.inPlace (Demand.applyCategory ⟨99⟩ []).program).1 = .error e) ∧
      (sampleCall.inPlace (Demand.applyCategory ⟨99⟩ []).program).2 = sampleCall ∧
      (∃ e, (sampleCall.openInPlace 0 .method "n").1 = .error e) ∧
      (sampleCall.openInPlace 0 .method "n").2 = sampleCall := by
  obtain ⟨hdemand, hsite⟩ := failed_in_place reachable_sampleCall
  have htrait : ∃ e, (sampleCall.inPlace (Demand.applyTrait ⟨8⟩ ⟨8⟩).program).1 = .error e :=
    ⟨_, rfl⟩
  have hcategory : ∃ e,
      (sampleCall.inPlace (Demand.applyCategory ⟨99⟩ []).program).1 = .error e := ⟨_, rfl⟩
  have htaken : ∃ e, (sampleCall.openInPlace 0 .method "n").1 = .error e := ⟨_, rfl⟩
  refine ⟨htrait, ?_, hcategory, ?_, htaken, ?_⟩
  · obtain ⟨e, he⟩ := htrait
    exact (hdemand _ _).2 e he
  · obtain ⟨e, he⟩ := hcategory
    exact (hdemand _ _).2 e he
  · obtain ⟨e, he⟩ := htaken
    exact ((hsite _ _ _).2 e he).1

end Engine

end LateBinding
